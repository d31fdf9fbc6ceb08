import AutoTest.World

/-!
# What `getTokens` delivers

`getTokens` copies its input through `snprintf` with the input as the format,
and cuts the copy. A directive has no argument, and `%%` becomes one `%`.

* `Tokenises`: the tokens are those of a plain split of 255 characters.
* `Unseen`: no `%` can be seen in the first fifteen words.
* `getTokens_plain_iff`: the split is the plain one exactly when every
  directive is `%%` and unseen.
-/

namespace AutoTest

open CString Strtok

structure Tokens where
  /-- the offsets of the entries written -/
  pArgv : List Nat
  tmp : List Cell
  /-- the result of the function, one less than the number of tokens -/
  numOfToken : Int

def Tokens.texts (t : Tokens) : List Text := t.pArgv.map (stringAt t.tmp)

def getTokens (inStr delim : Text) : Except Fault Tokens :=
  match snprintf maxScContent inStr with
  | none => .error .format
  | some t =>
    let (offsets, tmp) := splitWords delim maxToken (cells t) 0
    .ok ⟨offsets, tmp, (offsets.length : Int) - 1⟩

/-- The call in `cmd_proc`. -/
theorem Params.load_getTokens (line : Text) (p : Params) : p.load line =
    (AutoTest.getTokens line cSpace).map fun t =>
      ⟨t.numOfToken, fun i => t.pArgv[i]?.or (p.gCmdParam i), t.tmp⟩ := by
  unfold Params.load AutoTest.getTokens
  cases snprintf maxScContent line <;> rfl

/-- The call in `ioevt`. -/
theorem Params.getTokens_getTokens (inStr delim : Text) (p : Params) : p.getTokens inStr delim =
    (AutoTest.getTokens inStr delim).map fun t => (t.texts, { p with tmp := t.tmp }) := by
  unfold Params.getTokens AutoTest.getTokens
  cases snprintf maxScContent inStr <;> rfl

/-- The plain split: the first fifteen words of the first 255 characters. -/
def plainTokens (inStr delim : Text) : List Text :=
  (words delim (inStr.take (maxScContent - 1))).take maxToken

def Tokenises (inStr delim : Text) : Prop :=
  ∃ t, getTokens inStr delim = .ok t ∧ t.texts = plainTokens inStr delim ∧
    t.numOfToken = (plainTokens inStr delim).length - 1

theorem tokenises_iff_copy (inStr delim : Text) : Tokenises inStr delim ↔
    ∃ copy, format inStr = some copy ∧ plainTokens copy delim = plainTokens inStr delim := by
  unfold Tokenises getTokens snprintf
  cases format inStr with
  | none => simp
  | some copy =>
    have reads := splitWords_reads delim maxToken (copy.take (maxScContent - 1))
    have count := congrArg List.length reads
    rw [List.length_map] at count
    simp only [Option.map_some, Except.ok.injEq, exists_eq_left', Option.some.injEq, Tokens.texts]
    rw [reads, count]
    constructor
    · intro h
      exact h.1
    · intro same
      exact ⟨same, congrArg (fun ts : List Text => (ts.length : Int) - 1) same⟩

/-! ## When a copied `%%` can be seen -/

/-- How many characters of the input the first `n` characters of the copy are
made of. -/
def reach : Nat → Text → Nat
  | 0, _ => 0
  | _ + 1, [] => 0
  | n + 1, '%' :: '%' :: t => reach n t + 2
  | n + 1, _ :: t => reach n t + 1

/-- Where `%` delimits words: the characters that the copy reaches past the
first 255 add to none of the first words. -/
def UnseenDelim (inStr delim : Text) : Prop :=
  (words delim (inStr.take (reach (maxScContent - 1) inStr))).take maxToken = plainTokens inStr delim

/-- Where `%` belongs to words: there is none, or fifteen words end before the
first, or one `%` for every two fills the rest of the copy. -/
def UnseenWord (inStr delim : Text) : Prop :=
  let before := inStr.takeWhile (· ≠ '%')
  '%' ∉ inStr ∨ maxToken < (words delim (before ++ ['%'])).length ∨
    List.replicate (2 * (maxScContent - 1 - before.length)) '%' <+: inStr.drop before.length

def Unseen (inStr delim : Text) : Prop :=
  if '%' ∈ delim then UnseenDelim inStr delim else UnseenWord inStr delim

theorem reach_cons {c : Char} (hc : c ≠ '%') (n : Nat) (t : Text) :
    reach (n + 1) (c :: t) = reach n t + 1 := by
  simp [reach, hc]

/-- Words do not tell `%%` from `%` where both only separate them. -/
theorem words_copy {delim : Text} (hdelim : '%' ∈ delim) {t copy : Text} (h : format t = some copy)
    (front : Text) (n : Nat) :
    words delim (front ++ copy.take n) = words delim (front ++ t.take (reach n t)) := by
  induction t using format.induct generalizing copy front n with
  | case1 =>
    obtain rfl : [] = copy := by simpa [format] using h
    simp
  | case2 t ih =>
    obtain ⟨rest, hrest, rfl⟩ := Option.map_eq_some_iff.mp h
    cases n with
    | zero => simp [reach]
    | succ n =>
      have tail := ih hrest [] n
      simp only [List.nil_append] at tail
      simp only [reach, List.take_succ_cons]
      rw [words_append_delim hdelim, words_append_delim hdelim, words_delim hdelim, tail]
  | case3 t notPair =>
    obtain ⟨rest, -, rfl, -⟩ := format_percent h
    exact (notPair rest rfl).elim
  | case4 c t notPair hc ih =>
    rw [format_cons hc] at h
    obtain ⟨rest, hrest, rfl⟩ := Option.map_eq_some_iff.mp h
    cases n with
    | zero => simp [reach]
    | succ n =>
      have tail := ih hrest (front ++ [c]) n
      simpa [reach_cons hc] using tail

theorem format_percents (n : Nat) (t : Text) :
    format (List.replicate (2 * n) '%' ++ t) = (format t).map (List.replicate n '%' ++ ·) := by
  induction n with
  | zero => simp
  | succ n ih =>
    have two : 2 * (n + 1) = 2 * n + 1 + 1 := by omega
    rw [two, List.replicate_succ, List.replicate_succ, List.cons_append, List.cons_append, format, ih,
      List.replicate_succ]
    cases format t <;> rfl

/-- A run of `%` that looks the same at half its length fills the window. The
induction is on the window; each pair puts the input one more `%` ahead. -/
theorem percents_fill {delim t copy : Text} (outside : '%' ∉ delim) (h : format t = some copy)
    {ahead n : Nat} (same : (copy.take n).takeWhile (· ∉ delim) =
      ((List.replicate (ahead + 1) '%' ++ t).take n).takeWhile (· ∉ delim)) :
    List.replicate (2 * n) '%' <+: t := by
  induction n generalizing t copy ahead with
  | zero => simp
  | succ n ih =>
    rw [List.replicate_succ, List.cons_append, List.take_succ_cons,
      List.takeWhile_cons_of_pos (by simpa using outside)] at same
    cases copy with
    | nil => simp at same
    | cons c copy =>
      by_cases inside : c ∈ delim
      · simp [inside] at same
      rw [List.take_succ_cons, List.takeWhile_cons_of_pos (by simpa using inside)] at same
      obtain ⟨rfl, tails⟩ := List.cons.inj same
      cases t with
      | nil => simp [format] at h
      | cons d t =>
        have hd : d = '%' := by
          apply Classical.by_contradiction
          intro other
          rw [format_cons other] at h
          simp only [Option.map_eq_some_iff, List.cons.injEq] at h
          obtain ⟨-, -, same, -⟩ := h
          exact other same
        subst hd
        obtain ⟨rest, more, rfl, hmore, hrest⟩ := format_percent h
        obtain rfl := (List.cons.inj hmore).2
        have further : List.replicate ahead '%' ++ '%' :: '%' :: rest =
            List.replicate (ahead + 1 + 1) '%' ++ rest := by
          simp [List.replicate_succ']
        rw [further] at tails
        have two : 2 * (n + 1) = 2 * n + 1 + 1 := by omega
        rw [two, List.replicate_succ, List.replicate_succ]
        exact List.cons_prefix_cons.mpr ⟨rfl, List.cons_prefix_cons.mpr ⟨rfl, ih hrest tails⟩⟩

section Window

variable {inStr delim copy : Text}

/-- The words of the window over a text whose first `%` stands after `before`. -/
theorem window_words {front part : Text} (outside : '%' ∉ delim) (hpart : ∀ c ∈ part, c ∉ delim)
    (hends : ∀ more, words delim (front ++ more) = words delim front ++ words delim more)
    {size k : Nat} (hsize : size = (front ++ part).length + (k + 1)) (t : Text) :
    words delim ((front ++ part ++ '%' :: t).take size) = words delim front ++
      (part ++ '%' :: (t.take k).takeWhile (· ∉ delim)) ::
        words delim ((t.take k).dropWhile (· ∉ delim)) := by
  have word : ∀ c ∈ part ++ ['%'], c ∉ delim := by
    intro c hc
    rcases List.mem_append.mp hc with old | new
    · exact hpart c old
    · rwa [List.mem_singleton.mp new]
  have head := words_head word (by simp) (t.take k)
  rw [hsize, List.take_length_add_append, List.take_succ_cons, List.append_assoc, hends]
  simpa using head

theorem words_percent {front part : Text} (outside : '%' ∉ delim) (hpart : ∀ c ∈ part, c ∉ delim)
    (hends : ∀ more, words delim (front ++ more) = words delim front ++ words delim more) :
    (words delim (front ++ part ++ ['%'])).length = (words delim front).length + 1 := by
  have whole : (front ++ part ++ ['%']).take ((front ++ part).length + (0 + 1)) =
      front ++ part ++ ['%'] :=
    List.take_of_length_le (by simp [Nat.add_assoc])
  rw [← whole, window_words outside hpart hends rfl]
  simp

theorem take_fill (before rest : Text) (size : Nat) :
    (before ++ (List.replicate (size - before.length) '%' ++ rest)).take size =
      before.take size ++ List.replicate (size - before.length) '%' := by
  rw [List.take_append, List.take_left' (by simp)]

theorem same_of_fill {before t : Text} (plain : '%' ∉ before) {size : Nat}
    (h : format (before ++ t) = some copy)
    (fill : List.replicate (2 * (size - before.length)) '%' <+: t) :
    copy.take size = (before ++ t).take size := by
  obtain ⟨rest, rfl⟩ := fill
  rw [format_plain_append plain, format_percents] at h
  obtain ⟨half, hhalf, rfl⟩ := Option.map_eq_some_iff.mp h
  obtain ⟨last, -, rfl⟩ := Option.map_eq_some_iff.mp hhalf
  have double : 2 * (size - before.length) = (size - before.length) + (size - before.length) := by
    omega
  rw [take_fill, double, List.replicate_add, List.append_assoc, take_fill]

/-- A text with a `%`, all its directives being `%%`. -/
theorem format_some_percent (percent : '%' ∈ inStr) (h : format inStr = some copy) :
    ∃ before t rest, '%' ∉ before ∧ inStr = before ++ '%' :: '%' :: t ∧ format t = some rest ∧
      copy = before ++ '%' :: rest ∧ inStr.takeWhile (· ≠ '%') = before := by
  obtain ⟨t, split⟩ := split_before percent
  have plain : '%' ∉ inStr.takeWhile (· ≠ '%') := by
    intro inside
    simpa using List.mem_takeWhile_imp inside
  generalize inStr.takeWhile (· ≠ '%') = before at split plain
  subst split
  rw [format_plain_append plain] at h
  obtain ⟨tail, htail, rfl⟩ := Option.map_eq_some_iff.mp h
  obtain ⟨t, rest, rfl, rfl, hrest⟩ := format_percent htail
  exact ⟨before, t, rest, plain, rfl, hrest, rfl, rfl⟩

theorem unseenWord_iff (outside : '%' ∉ delim) (h : format inStr = some copy) :
    plainTokens copy delim = plainTokens inStr delim ↔ UnseenWord inStr delim := by
  by_cases percent : '%' ∈ inStr
  · obtain ⟨before, t, rest, plain, rfl, hrest, rfl, hbefore⟩ := format_some_percent percent h
    simp only [UnseenWord, hbefore, List.drop_left, percent, not_true_eq_false, false_or]
    by_cases fill : List.replicate (2 * (maxScContent - 1 - before.length)) '%' <+: '%' :: '%' :: t
    · have window := same_of_fill plain h fill
      simp only [plainTokens, window, fill, or_true]
    · have short : before.length < maxScContent - 1 := by
        apply Classical.by_contradiction
        intro long
        have none_left : maxScContent - 1 - before.length = 0 := by omega
        exact fill (by simp [none_left])
      obtain ⟨front, part, rfl, hpart, hends⟩ := open_end delim before
      obtain ⟨k, hsize⟩ := Nat.exists_eq_add_of_lt short
      rw [words_percent outside hpart hends]
      simp only [plainTokens, fill, or_false]
      rw [window_words outside hpart hends hsize, window_words outside hpart hends hsize]
      constructor
      · intro same
        apply Classical.by_contradiction
        intro few
        have room : (words delim front).length < maxToken := by omega
        have word := congrArg (fun ws : List Text => ws[(words delim front).length]?) same
        simp only [List.getElem?_take_of_lt room, List.getElem?_append_right (Nat.le_refl _),
          Nat.sub_self, List.getElem?_cons_zero, Option.some.injEq, List.append_cancel_left_eq,
          List.cons.injEq, true_and] at word
        have ahead : '%' :: t = List.replicate (0 + 1) '%' ++ t := rfl
        rw [ahead] at word
        obtain ⟨more, hmore⟩ := percents_fill outside hrest word
        have two : 2 * (maxScContent - 1 - (front ++ part).length) = 2 * k + 1 + 1 := by omega
        apply fill
        rw [two, List.replicate_succ, List.replicate_succ]
        exact ⟨more, by simp [← hmore]⟩
      · intro many
        rw [List.take_append_of_le_length (by omega), List.take_append_of_le_length (by omega)]
  · rw [format_plain percent] at h
    obtain rfl := Option.some.inj h
    simp [UnseenWord, percent]

theorem unseenDelim_iff (inside : '%' ∈ delim) (h : format inStr = some copy) :
    plainTokens copy delim = plainTokens inStr delim ↔ UnseenDelim inStr delim := by
  have same := words_copy inside h [] (maxScContent - 1)
  simp only [List.nil_append] at same
  unfold UnseenDelim
  rw [plainTokens, same]

end Window

/-- `getTokens` splits its input plainly exactly when every directive in it is
`%%` and no doubled `%` can be seen in the words kept. -/
theorem getTokens_plain_iff (inStr delim : Text) :
    Tokenises inStr delim ↔ (format inStr).isSome ∧ Unseen inStr delim := by
  rw [tokenises_iff_copy]
  cases h : format inStr with
  | none => simp
  | some copy =>
    simp only [Option.some.injEq, exists_eq_left', Option.isSome_some, true_and, Unseen]
    by_cases inside : '%' ∈ delim
    · simp only [inside, ↓reduceIte]
      exact unseenDelim_iff inside h
    · simp only [inside, ↓reduceIte]
      exact unseenWord_iff inside h

/-- A number with a percent sign, written as a careful user would. -/
theorem getTokens_percent : ¬ ∀ inStr delim : Text, delim ≠ [] → Tokenises inStr delim := by
  intro plain
  have split := (tokenises_iff_copy _ _).mp (plain "call 1 50%%".toList cSpace (by decide))
  obtain ⟨copy, hcopy, same⟩ := split
  have written : format "call 1 50%%".toList = some "call 1 50%".toList := by decide
  obtain rfl := Option.some.inj (written.symm.trans hcopy)
  exact absurd same (by decide +kernel)

end AutoTest
