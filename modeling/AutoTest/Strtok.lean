import Mathlib.Data.List.TakeWhile
import AutoTest.CString

/-!
# Splitting a buffer in place

`strtok` cuts a buffer into words by overwriting delimiters with terminators,
and hands out offsets into it. Those offsets stay readable while the buffer is
not rewritten, and after that they read whatever the buffer then holds.

* `words` is the plain split: the maximal runs of characters outside `delim`.
* `splitWords` is the loop over `strtok` with a bound on the offsets kept.
* `splitWords_reads`: read through the cut buffer, the offsets kept are the
  first words of the plain split, in order.
-/

namespace Strtok

open CString

/-- One byte of a buffer; `none` is the terminator. -/
abbrev Cell := Option Char

def cells (t : Text) : List Cell := t.map some

/-- The string a buffer holds; the zeroed bytes past its end terminate it. -/
def cstring : List Cell → Text
  | some c :: buf => c :: cstring buf
  | _ => []

def stringAt (buf : List Cell) (i : Nat) : Text := cstring (buf.drop i)

def words (delim t : Text) : List Text :=
  (t.splitOnP (· ∈ delim)).filter (· ≠ [])

/-- One call of `strtok` that scans from `pos`: the offset of the word found,
the buffer, and the place where the next call goes on. -/
def strtok (delim : Text) (buf : List Cell) (pos : Nat) : Option Nat × List Cell × Nat :=
  let rest := stringAt buf pos
  let start := pos + (rest.takeWhile (· ∈ delim)).length
  let word := (rest.dropWhile (· ∈ delim)).takeWhile (· ∉ delim)
  if word = [] then (none, buf, pos)
  else
    match buf[start + word.length]? with
    | some (some _) => (some start, buf.set (start + word.length) none, start + word.length + 1)
    | _ => (some start, buf, start + word.length)

/-- Keep at most `n` offsets. The call after the last one kept still cuts. -/
def splitWords (delim : Text) : Nat → List Cell → Nat → List Nat × List Cell
  | 0, buf, pos => ([], (strtok delim buf pos).2.1)
  | n + 1, buf, pos =>
    match strtok delim buf pos with
    | (none, buf, _) => ([], buf)
    | (some start, buf, pos) =>
      let (offsets, buf) := splitWords delim n buf pos
      (start :: offsets, buf)

@[simp] theorem cstring_nil : cstring [] = [] := rfl

@[simp] theorem cells_append (a b : Text) : cells (a ++ b) = cells a ++ cells b := by
  simp [cells]

@[simp] theorem cells_cons (c : Char) (t : Text) : cells (c :: t) = some c :: cells t := rfl

@[simp] theorem length_cells (t : Text) : (cells t).length = t.length := by simp [cells]

theorem cstring_cells_append (t : Text) (buf : List Cell) :
    cstring (cells t ++ buf) = t ++ cstring buf := by
  induction t with
  | nil => rfl
  | cons c t ih => simp [cstring, ih]

@[simp] theorem cstring_cells (t : Text) : cstring (cells t) = t := by
  simpa [cstring] using cstring_cells_append t []

theorem stringAt_append (front : List Cell) (t : Text) (buf : List Cell) :
    stringAt (front ++ (cells t ++ buf)) front.length = t ++ cstring buf := by
  simp [stringAt, cstring_cells_append]

theorem words_delim {delim : Text} {c : Char} (hc : c ∈ delim) (t : Text) :
    words delim (c :: t) = words delim t := by
  simp [words, List.splitOnP_cons_eq_if_modifyHead, hc]

theorem words_skip {delim skip : Text} (hs : ∀ c ∈ skip, c ∈ delim) (t : Text) :
    words delim (skip ++ t) = words delim t := by
  induction skip with
  | nil => rfl
  | cons c skip ih =>
    simp only [List.mem_cons, forall_eq_or_imp] at hs
    rw [List.cons_append, words_delim hs.1, ih hs.2]

theorem words_word {delim word : Text} (hw : ∀ c ∈ word, c ∉ delim) (hne : word ≠ []) :
    words delim word = [word] := by
  have hw' : ∀ c ∈ word, decide (c ∈ delim) = false := by simpa using hw
  simp [words, List.splitOnP_eq_singleton hw', hne]

theorem words_cons {delim word : Text} {c : Char} (hw : ∀ c ∈ word, c ∉ delim)
    (hne : word ≠ []) (hc : c ∈ delim) (t : Text) :
    words delim (word ++ c :: t) = word :: words delim t := by
  have hw' : ∀ c ∈ word, decide (c ∈ delim) = false := by simpa using hw
  simp [words, List.splitOnP_append_cons_of_forall_mem hw' c (by simpa using hc), hne]

theorem words_filled {delim t word : Text} (h : word ∈ words delim t) : word ≠ [] := by
  simpa using (List.mem_filter.mp h).2

@[simp] theorem words_nil (delim : Text) : words delim [] = [] := by simp [words]

/-- A text is delimiters, then a word, then nothing or a delimiter and more. -/
inductive Shape (delim : Text) : Text → Prop
  | blank {skip : Text} (hs : ∀ c ∈ skip, c ∈ delim) : Shape delim skip
  | last {skip word : Text} (hs : ∀ c ∈ skip, c ∈ delim) (hw : ∀ c ∈ word, c ∉ delim)
      (hne : word ≠ []) : Shape delim (skip ++ word)
  | more {skip word t : Text} {c : Char} (hs : ∀ c ∈ skip, c ∈ delim)
      (hw : ∀ c ∈ word, c ∉ delim) (hne : word ≠ []) (hc : c ∈ delim) :
      Shape delim (skip ++ (word ++ c :: t))

theorem Shape.delim_cons {delim t : Text} {c : Char} (hc : c ∈ delim) (h : Shape delim t) :
    Shape delim (c :: t) := by
  cases h with
  | blank hs => exact .blank (by simpa [hc] using hs)
  | @last skip word hs hw hne =>
    exact @Shape.last delim (c :: skip) word (by simpa [hc] using hs) hw hne
  | @more skip word t d hs hw hne hd =>
    exact @Shape.more delim (c :: skip) word t d (by simpa [hc] using hs) hw hne hd

theorem Shape.char_cons {delim t : Text} {c : Char} (hc : c ∉ delim) (h : Shape delim t) :
    Shape delim (c :: t) := by
  have empty : ∀ d ∈ ([] : Text), d ∈ delim := by simp
  have one : ∀ d ∈ [c], d ∉ delim := by simpa using hc
  cases h with
  | blank hs =>
    cases t with
    | nil => exact .last empty one (by simp)
    | cons d t => exact .more empty one (by simp) (hs d (by simp))
  | @last skip word hs hw hne =>
    cases skip with
    | nil => exact .last empty (by simpa [hc] using hw) (by simp)
    | cons d skip => exact .more empty one (by simp) (hs d (by simp))
  | @more skip word t d hs hw hne hd =>
    cases skip with
    | nil => exact @Shape.more delim [] (c :: word) t d empty (by simpa [hc] using hw) (by simp) hd
    | cons e skip => exact .more empty one (by simp) (hs e (by simp))

theorem shape (delim t : Text) : Shape delim t := by
  induction t with
  | nil => exact .blank (by simp)
  | cons c t ih =>
    by_cases hc : c ∈ delim
    · exact ih.delim_cons hc
    · exact ih.char_cons hc

theorem takeWhile_skip {delim skip : Text} (hs : ∀ c ∈ skip, c ∈ delim) {t : Text}
    (ht : ∀ c ∈ t.head?, c ∉ delim) : (skip ++ t).takeWhile (· ∈ delim) = skip := by
  cases t with
  | nil => simpa [List.takeWhile_eq_self_iff] using hs
  | cons c t =>
    have hc : c ∉ delim := by simpa using ht
    rw [List.takeWhile_append_of_pos (by simpa using hs)]
    simp [hc]

theorem dropWhile_skip {delim skip : Text} (hs : ∀ c ∈ skip, c ∈ delim) {t : Text}
    (ht : ∀ c ∈ t.head?, c ∉ delim) : (skip ++ t).dropWhile (· ∈ delim) = t := by
  rw [List.dropWhile_append_of_pos (by simpa using hs)]
  cases t with
  | nil => rfl
  | cons c t => simp [show c ∉ delim by simpa using ht]

theorem takeWhile_word {delim word : Text} (hw : ∀ c ∈ word, c ∉ delim) {t : Text}
    (ht : ∀ c ∈ t.head?, c ∈ delim) : (word ++ t).takeWhile (· ∉ delim) = word := by
  rw [List.takeWhile_append_of_pos (by simpa using hw)]
  cases t with
  | nil => simp
  | cons c t => simp [show c ∈ delim by simpa using ht]

theorem head_word {delim word t : Text} (hw : ∀ c ∈ word, c ∉ delim) (hne : word ≠ []) :
    ∀ c ∈ (word ++ t).head?, c ∉ delim := by
  cases word with
  | nil => exact absurd rfl hne
  | cons d word => simpa using hw d (by simp)

theorem strtok_blank {delim skip : Text} (hs : ∀ c ∈ skip, c ∈ delim) (front : List Cell) :
    strtok delim (front ++ cells skip) front.length = (none, front ++ cells skip, front.length) := by
  have hrest : stringAt (front ++ cells skip) front.length = skip := by simp [stringAt]
  have hword : skip.dropWhile (· ∈ delim) = [] := by
    simpa [List.dropWhile_eq_nil_iff] using hs
  simp [strtok, hrest, hword]

theorem strtok_last {delim skip word : Text} (hs : ∀ c ∈ skip, c ∈ delim)
    (hw : ∀ c ∈ word, c ∉ delim) (hne : word ≠ []) (front : List Cell) :
    strtok delim (front ++ cells (skip ++ word)) front.length =
      (some (front.length + skip.length), front ++ cells (skip ++ word),
        front.length + skip.length + word.length) := by
  have hrest : stringAt (front ++ cells (skip ++ word)) front.length = skip ++ word := by
    simpa using stringAt_append front (skip ++ word) []
  have hhead : ∀ c ∈ word.head?, c ∉ delim := by simpa using head_word (t := []) hw hne
  have hskip := takeWhile_skip hs hhead
  have hdrop := dropWhile_skip hs hhead
  have hword : word.takeWhile (· ∉ delim) = word := by
    simpa using takeWhile_word (t := []) hw (by simp)
  have hend : (front ++ cells (skip ++ word))[front.length + skip.length + word.length]? = none := by
    apply List.getElem?_eq_none
    simp [Nat.add_assoc]
  simp only [strtok, hrest, hskip, hdrop, hword, hne, ↓reduceIte, hend]

theorem strtok_more {delim skip word t : Text} {c : Char} (hs : ∀ c ∈ skip, c ∈ delim)
    (hw : ∀ c ∈ word, c ∉ delim) (hne : word ≠ []) (hc : c ∈ delim) (front : List Cell) :
    strtok delim (front ++ cells (skip ++ (word ++ c :: t))) front.length =
      (some (front.length + skip.length), front ++ (cells skip ++ (cells word ++ none :: cells t)),
        front.length + skip.length + word.length + 1) := by
  have hrest : stringAt (front ++ cells (skip ++ (word ++ c :: t))) front.length =
      skip ++ (word ++ c :: t) := by
    simpa using stringAt_append front (skip ++ (word ++ c :: t)) []
  have hhead := head_word (t := c :: t) hw hne
  have hskip := takeWhile_skip hs hhead
  have hdrop := dropWhile_skip hs hhead
  have hword : (word ++ c :: t).takeWhile (· ∉ delim) = word := takeWhile_word hw (by simpa using hc)
  have hcells : front ++ cells (skip ++ (word ++ c :: t)) =
      (front ++ cells skip ++ cells word) ++ some c :: cells t := by simp
  have hlen : front.length + skip.length + word.length =
      (front ++ cells skip ++ cells word).length := by simp [Nat.add_assoc]
  have hcell : (front ++ cells (skip ++ (word ++ c :: t)))[front.length +
    skip.length + word.length]? =
      some (some c) := by
    rw [hcells, hlen, List.getElem?_append_right (Nat.le_refl _)]
    simp
  simp only [strtok, hrest, hskip, hdrop, hword, hne, ↓reduceIte, hcell]
  rw [hcells, hlen, List.set_append_right _ _ (Nat.le_refl _)]
  simp

theorem splitWords_end (delim : Text) (n : Nat) (buf : List Cell) :
    splitWords delim n buf buf.length = ([], buf) := by
  have hend : strtok delim buf buf.length = (none, buf, buf.length) := by
    simpa [cells] using strtok_blank (by simp : ∀ c ∈ ([] : Text), c ∈ delim) buf
  cases n <;> simp [splitWords, hend]

theorem length_strtok (delim : Text) (buf : List Cell) (pos : Nat) :
    (strtok delim buf pos).2.1.length = buf.length := by
  simp only [strtok]
  split
  · rfl
  · split <;> simp

theorem length_splitWords (delim : Text) (n : Nat) (buf : List Cell) (pos : Nat) :
    (splitWords delim n buf pos).2.length = buf.length := by
  induction n generalizing buf pos with
  | zero => exact length_strtok delim buf pos
  | succ n ih =>
    have cut := length_strtok delim buf pos
    simp only [splitWords]
    split
    · rename_i h
      simpa [h] using cut
    · rename_i h
      simpa [h, ih] using cut

theorem length_cstring_le (buf : List Cell) : (cstring buf).length ≤ buf.length := by
  induction buf with
  | nil => simp
  | cons c buf ih =>
    cases c with
    | none => simp [cstring]
    | some c => simpa [cstring] using ih

/-- Of a text without a word nothing is cut. -/
theorem splitWords_blank {delim t : Text} (h : words delim t = []) (n : Nat) :
    splitWords delim n (cells t) 0 = ([], cells t) ∧ ∀ c ∈ t, c ∈ delim := by
  cases shape delim t with
  | blank hs =>
    have none_left := strtok_blank hs []
    simp only [List.nil_append, List.length_nil] at none_left
    refine ⟨?_, hs⟩
    cases n <;> simp [splitWords, none_left]
  | last hs hw hne => simp [words_skip hs, words_word hw hne] at h
  | more hs hw hne hc => simp [words_skip hs, words_cons hw hne hc] at h

/-- What cutting leaves alone and what the offsets kept read. The induction is
on the bound; `front` is the part of the buffer already cut. -/
theorem splitWords_spec (delim : Text) (n : Nat) (front : List Cell) (t : Text) :
    ∃ offsets tail, splitWords delim n (front ++ cells t) front.length = (offsets, front ++ tail) ∧
      offsets.map (stringAt (front ++ tail)) = (words delim t).take n := by
  induction n generalizing front t with
  | zero =>
    cases shape delim t with
    | @blank skip hs =>
      exact ⟨[], cells t, by simp [splitWords, strtok_blank hs], by simp⟩
    | @last skip word hs hw hne =>
      exact ⟨[], cells (skip ++ word), by simp only [splitWords, strtok_last hs hw hne], by simp⟩
    | @more skip word t c hs hw hne hc =>
      exact ⟨[], cells skip ++ (cells word ++ none :: cells t),
        by simp only [splitWords, strtok_more hs hw hne hc], by simp⟩
  | succ n ih =>
    cases shape delim t with
    | blank hs =>
      refine ⟨[], cells t, by simp [splitWords, strtok_blank hs], ?_⟩
      have none_left : words delim t = [] := by simpa using words_skip hs []
      simp [none_left]
    | @last skip word hs hw hne =>
      refine ⟨[front.length + skip.length], cells (skip ++ word), ?_, ?_⟩
      · have hlen : front.length + skip.length + word.length =
            (front ++ cells (skip ++ word)).length := by simp [Nat.add_assoc]
        simp only [splitWords, strtok_last hs hw hne, hlen, splitWords_end]
      · have hat := stringAt_append (front ++ cells skip) word []
        have hstart : (front ++ cells skip).length = front.length + skip.length := by simp
        rw [hstart, List.append_nil, List.append_assoc] at hat
        simp [words_skip hs, words_word hw hne, hat]
    | @more skip word t c hs hw hne hc =>
      let cut := front ++ (cells skip ++ (cells word ++ [none]))
      obtain ⟨offsets, tail, hsplit, hread⟩ := ih cut t
      have hcut : front ++ (cells skip ++ (cells word ++ none :: cells t)) = cut ++ cells t := by
        simp [cut]
      have hlen : front.length + skip.length + word.length + 1 = cut.length := by
        simp [cut, Nat.add_assoc]
      refine ⟨(front.length + skip.length) :: offsets,
        cells skip ++ (cells word ++ none :: tail), ?_, ?_⟩
      · simp only [splitWords, strtok_more hs hw hne hc, hcut, hlen, hsplit]
        simp [cut]
      · have hat := stringAt_append (front ++ cells skip) word (none :: tail)
        have hstart : (front ++ cells skip).length = front.length + skip.length := by simp
        have hbuf : front ++ (cells skip ++ (cells word ++ none :: tail)) = cut ++ tail := by
          simp [cut]
        rw [hstart, List.append_assoc] at hat
        rw [words_skip hs, words_cons hw hne hc, List.take_succ_cons, List.map_cons, hat, hbuf, hread]
        simp [cstring]

/-- A word takes a character, and another one stands before the next word. -/
theorem length_words_le (delim t : Text) : 2 * (words delim t).length ≤ t.length + 1 := by
  induction hn : t.length using Nat.strong_induction_on generalizing t with
  | _ n ih =>
    cases shape delim t with
    | blank hs =>
      have none_left : words delim t = [] := by simpa using words_skip hs []
      simp [none_left]
    | @last skip word hs hw hne =>
      have filled : 0 < word.length := List.length_pos_iff.mpr hne
      rw [words_skip hs, words_word hw hne]
      simp only [List.length_append, List.length_singleton] at hn ⊢
      omega
    | @more skip word t c hs hw hne hc =>
      have filled : 0 < word.length := List.length_pos_iff.mpr hne
      simp only [List.length_append, List.length_cons] at hn
      have rest := ih t.length (by omega) t rfl
      rw [words_skip hs, words_cons hw hne hc, List.length_cons]
      omega

theorem words_plain {delim t word : Text} (h : word ∈ words delim t) : ∀ c ∈ word, c ∉ delim := by
  induction hn : t.length using Nat.strong_induction_on generalizing t with
  | _ n ih =>
    cases shape delim t with
    | blank hs =>
      have none_left : words delim t = [] := by simpa using words_skip hs []
      simp [none_left] at h
    | @last skip first hs hw hne =>
      rw [words_skip hs, words_word hw hne] at h
      obtain rfl := List.mem_singleton.mp h
      exact hw
    | @more skip first t c hs hw hne hc =>
      simp only [List.length_append, List.length_cons] at hn
      rw [words_skip hs, words_cons hw hne hc] at h
      rcases List.mem_cons.mp h with rfl | later
      · exact hw
      · exact ih t.length (by omega) later rfl

/-! ## Words of a text in two parts -/

theorem words_append_delim {delim : Text} {c : Char} (hc : c ∈ delim) (front t : Text) :
    words delim (front ++ c :: t) = words delim front ++ words delim t := by
  induction hn : front.length using Nat.strong_induction_on generalizing front with
  | _ n ih =>
    cases shape delim front with
    | blank hs =>
      have none_left : words delim front = [] := by simpa using words_skip hs []
      rw [words_skip hs, words_delim hc, none_left, List.nil_append]
    | @last skip word hs hw hne =>
      rw [List.append_assoc, words_skip hs, words_skip hs, words_cons hw hne hc, words_word hw hne]
      rfl
    | @more skip word rest d hs hw hne hd =>
      have shorter : rest.length < n := by
        simp only [List.length_append, List.length_cons] at hn
        omega
      have tail := ih rest.length shorter rest rfl
      rw [List.append_assoc, words_skip hs, words_skip hs, List.append_assoc, List.cons_append,
        words_cons hw hne hd, words_cons hw hne hd, tail, List.cons_append]

/-- The first word of a text that starts with one. -/
theorem words_head {delim word : Text} (hw : ∀ c ∈ word, c ∉ delim) (hne : word ≠ []) (t : Text) :
    words delim (word ++ t) =
      (word ++ t.takeWhile (· ∉ delim)) :: words delim (t.dropWhile (· ∉ delim)) := by
  have inside : ∀ c ∈ word ++ t.takeWhile (· ∉ delim), c ∉ delim := by
    intro c hc
    rcases List.mem_append.mp hc with front | back
    · exact hw c front
    · simpa using List.mem_takeWhile_imp back
  have filled : word ++ t.takeWhile (· ∉ delim) ≠ [] := by simp [hne]
  have split : word ++ t = (word ++ t.takeWhile (· ∉ delim)) ++ t.dropWhile (· ∉ delim) := by
    rw [List.append_assoc, List.takeWhile_append_dropWhile]
  rw [split]
  cases hrest : t.dropWhile (· ∉ delim) with
  | nil => rw [List.append_nil, words_word inside filled, words_nil]
  | cons d rest =>
    have hd : d ∈ delim := by
      have stops := List.head?_dropWhile_not (· ∉ delim) t
      simp only [hrest, List.head?_cons] at stops
      simpa using stops
    rw [words_cons inside filled hd, words_delim hd]

/-- A text is one that ends its words, and then part of a word. -/
theorem open_end (delim t : Text) : ∃ front part, t = front ++ part ∧ (∀ c ∈ part, c ∉ delim) ∧
    ∀ more, words delim (front ++ more) = words delim front ++ words delim more := by
  induction t using List.reverseRecOn with
  | nil => exact ⟨[], [], rfl, by simp, by simp⟩
  | append_singleton t c ih =>
    by_cases hc : c ∈ delim
    · refine ⟨t ++ [c], [], by simp, by simp, ?_⟩
      intro more
      have closed : words delim (t ++ [c]) = words delim t := by
        simpa using words_append_delim hc t []
      rw [closed, List.append_assoc]
      exact words_append_delim hc t more
    · obtain ⟨front, part, rfl, hpart, hends⟩ := ih
      refine ⟨front, part ++ [c], by simp, fun d hd => ?_, hends⟩
      rcases List.mem_append.mp hd with old | new
      · exact hpart d old
      · rwa [List.mem_singleton.mp new]

/-! ## Joined lists, and what is left of one that is cut -/

/-- `k1,...,km`, with any separator. -/
def joined (c : Char) : List Text → Text
  | [] => []
  | [k] => k
  | k :: next :: ks => k ++ c :: joined c (next :: ks)

theorem words_joined {c : Char} {ks : List Text} (plain : ∀ k ∈ ks, c ∉ k)
    (filled : ∀ k ∈ ks, k ≠ []) : words [c] (joined c ks) = ks := by
  induction ks with
  | nil => simp [joined]
  | cons k ks ih =>
    have hk : ∀ d ∈ k, d ∉ [c] := by
      intro d hd e
      exact plain k (by simp) (List.mem_singleton.mp e ▸ hd)
    cases ks with
    | nil => exact words_word hk (filled k (by simp))
    | cons next ks =>
      have tail := ih (fun d hd => plain d (by simp [hd])) (fun d hd => filled d (by simp [hd]))
      rw [joined, words_cons hk (filled k (by simp)) (by simp), tail]

/-- The pieces left of a list that was cut: some of them, and then perhaps a
proper part of the next one. -/
inductive CutShort : List Text → List Text → Prop
  | before (ks : List Text) (h : ks ≠ []) : CutShort ks []
  | inside (k p : Text) (ks : List Text) (hp : p <+: k) (some_left : p ≠ []) (proper : p ≠ k) :
      CutShort (k :: ks) [p]
  | after (k : Text) {ks ps : List Text} (h : CutShort ks ps) : CutShort (k :: ks) (k :: ps)

theorem CutShort.irrefl {ks : List Text} (h : CutShort ks ks) : False := by
  generalize hps : ks = ps at h
  have eq := hps
  clear hps
  induction ks generalizing ps with
  | nil => cases eq; cases h; contradiction
  | cons k ks ih =>
    cases eq
    cases h with
    | inside _ _ _ _ _ proper => exact proper rfl
    | after _ h => exact ih ks h rfl

theorem joined_concat {c : Char} (front : List Text) (k : Text) (d : Char) :
    joined c (front ++ [k ++ [d]]) = joined c (front ++ [k]) ++ [d] := by
  induction front with
  | nil => rfl
  | cons next front ih =>
    cases front with
    | nil => simp [joined]
    | cons other front =>
      simp only [List.cons_append, joined] at ih ⊢
      rw [ih]
      simp

theorem joined_length {c : Char} {n : Nat} {ks : List Text} (short : ∀ k ∈ ks, k.length ≤ n) :
    (joined c ks).length ≤ (n + 1) * ks.length := by
  induction ks with
  | nil => simp [joined]
  | cons k ks ih =>
    have head := short k (by simp)
    have tail := ih fun d hd => short d (by simp [hd])
    cases ks with
    | nil =>
      simp only [joined, List.length_singleton]
      omega
    | cons next ks =>
      simp only [joined, List.length_append, List.length_cons, Nat.mul_succ] at tail ⊢
      omega

theorem plain_joined {c d : Char} {ks : List Text} (other : d ≠ c) (plain : ∀ k ∈ ks, d ∉ k) :
    d ∉ joined c ks := by
  induction ks with
  | nil => simp [joined]
  | cons k ks ih =>
    have head := plain k (by simp)
    have tail := ih fun e he => plain e (by simp [he])
    cases ks with
    | nil => simpa [joined] using head
    | cons next ks => simpa [joined, head, other] using tail

theorem words_cut {c : Char} {ks : List Text} (plain : ∀ k ∈ ks, c ∉ k) (filled : ∀ k ∈ ks, k ≠ [])
    {n : Nat} (cut : n < (joined c ks).length) : CutShort ks (words [c] ((joined c ks).take n)) := by
  induction ks generalizing n with
  | nil => simp [joined] at cut
  | cons k ks ih =>
    have hk : ∀ d ∈ k, d ∉ [c] := by
      intro d hd e
      exact plain k (by simp) (List.mem_singleton.mp e ▸ hd)
    have part (short : n < k.length) : CutShort (k :: ks) (words [c] (k.take n)) := by
      by_cases empty : n = 0
      · simpa [empty] using CutShort.before (k :: ks) (by simp)
      · have some_left : k.take n ≠ [] := by
          simp [empty, filled k (by simp)]
        have proper : k.take n ≠ k := by
          intro e
          have := congrArg List.length e
          simp only [List.length_take] at this
          omega
        rw [words_word (fun d hd => hk d (List.mem_of_mem_take hd)) some_left]
        exact .inside k _ ks (List.take_prefix n k) some_left proper
    cases ks with
    | nil => exact part cut
    | cons next ks =>
      rcases Nat.lt_trichotomy n k.length with short | rfl | long
      · have within : (joined c (k :: next :: ks)).take n = k.take n := by
          rw [joined, List.take_append_of_le_length (by omega)]
        exact within ▸ part short
      · have whole : (joined c (k :: next :: ks)).take k.length = k := by
          rw [joined, List.take_append_of_le_length (by omega), List.take_length]
        rw [whole, words_word hk (filled k (by simp))]
        exact .after k (.before _ (by simp))
      · obtain ⟨m, rfl⟩ : ∃ m, n = k.length + (m + 1) := ⟨n - k.length - 1, by omega⟩
        have split : (joined c (k :: next :: ks)).take (k.length + (m + 1)) =
            k ++ c :: (joined c (next :: ks)).take m := by
          rw [joined, List.take_length_add_append, List.take_succ_cons]
        have inner : m < (joined c (next :: ks)).length := by
          simp only [joined, List.length_append, List.length_cons] at cut
          omega
        rw [split, words_cons hk (filled k (by simp)) (by simp)]
        exact .after k (ih (fun d hd => plain d (by simp [hd])) (fun d hd =>
          filled d (by simp [hd])) inner)

/-- Read through the cut buffer, the offsets kept are the first words. -/
theorem splitWords_reads (delim : Text) (n : Nat) (t : Text) :
    (splitWords delim n (cells t) 0).1.map (stringAt (splitWords delim n (cells t) 0).2) =
      (words delim t).take n := by
  obtain ⟨offsets, tail, hsplit, hread⟩ := splitWords_spec delim n [] t
  simp only [List.nil_append, List.length_nil] at hsplit hread
  rw [hsplit]
  exact hread

end Strtok
