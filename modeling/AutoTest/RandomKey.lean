import AutoTest.KeyEvents
import AutoTest.RandomValue

/-!
# The key that `randomKey` presses

The index is a draw scaled in single precision, where a draw near the top of
the generator's range is rounded up to the range itself.

* `keyIndex_top`: the draws whose index lies outside the table.
* `random_key_iff`: one key press is queued, by indices inside the table,
  exactly when no draw that is used is one of these.
-/

namespace AutoTest

open CString Strtok Program Cmd

/-! ## Rounding -/

/-- Rounding adds at most half of the last place. -/
theorem toFloat_le {x k : Nat} (small : x < 2 ^ (k + 24)) : 2 * toFloat x ≤ 2 * x + 2 ^ k := by
  have shift : x.log2 - 23 ≤ k := by
    by_cases zero : x = 0
    · simp [zero]
    · have := (Nat.log2_lt zero).mpr small
      omega
  have place : 2 ^ (x.log2 - 23) ≤ 2 ^ k := Nat.pow_le_pow_right (by omega) shift
  have parts := Nat.div_add_mod' x (2 ^ (x.log2 - 23))
  unfold toFloat
  dsimp only
  generalize 2 ^ (x.log2 - 23) = unit at *
  split
  · rename_i up
    rw [Nat.add_mul, Nat.one_mul]
    omega
  · omega

/-- With 31 bits the last place counts 128. -/
theorem toFloat_wide {r : Nat} (low : 2 ^ 30 ≤ r) (high : r < 2 ^ 31) : toFloat r =
    if 2 * (r % 128) > 128 ∨ (2 * (r % 128) = 128 ∧ r / 128 % 2 = 1) then (r / 128 + 1) * 128
    else r / 128 * 128 := by
  have bits : r.log2 = 30 := (Nat.log2_eq_iff (by omega)).mpr ⟨low, high⟩
  simp only [toFloat, bits]
  rfl

theorem toFloat_below {r : Nat} (below : r < 2 ^ 31 - 64) : toFloat r ≤ 2 ^ 31 - 128 := by
  by_cases wide : 2 ^ 30 ≤ r
  · rw [toFloat_wide wide (by omega)]
    split
    · omega
    · omega
  · have near := toFloat_le (k := 6) (x := r) (by omega)
    omega

theorem toFloat_top {r : Nat} (top : 2 ^ 31 - 64 ≤ r) (draw : r ≤ randMax) : toFloat r = 2 ^ 31 := by
  simp only [randMax] at draw
  rw [toFloat_wide (by omega) (by omega), if_pos (by omega)]
  omega

/-- The share of a draw reaches 255 at the top of the range only. -/
theorem scaleRand_keys {r : Nat} (draw : r ≤ randMax) :
    scaleRand maxKeyNum r = 255 ∧ 2 ^ 31 - 64 ≤ r ∨ scaleRand maxKeyNum r < 255 ∧
      r < 2 ^ 31 - 64 := by
  have whole : toFloat maxKeyNum = 255 := by decide
  rcases Nat.lt_or_ge r (2 ^ 31 - 64) with below | top
  · right
    refine ⟨?_, below⟩
    have least := toFloat_below below
    have near := toFloat_le (k := 15) (x := 255 * toFloat r) (by omega)
    rw [scaleRand, whole, Nat.div_lt_iff_lt_mul (by omega)]
    omega
  · left
    refine ⟨?_, top⟩
    rw [scaleRand, whole, toFloat_top top draw]
    decide

/-! ## Draws -/

/-- `getRandValue(MIN_KEY_NUM, MAX_KEY_NUM)` -/
def keyIndex (r : Nat) : Int := getRandValue 0 maxKeyNum r

/-- The entry of the table at the index drawn. -/
def keyEntry (r : Nat) : AtKey := gKeyLib (keyIndex r).toNat

def selects (r : Nat) : Bool := decide (0 < (keyEntry r).keyCode.length)

/-- The draws up to the first that selects a key. -/
def usedDraws : List Nat → List Nat
  | [] => []
  | r :: rs => if selects r then [r] else r :: usedDraws rs

/-- Values of `rand` of which the last selects a key. -/
structure KeyDraws (ds : List Nat) : Prop where
  draws : ∀ r ∈ ds, r ≤ randMax
  last : ∃ front r, ds = front ++ [r] ∧ selects r = true

theorem keyIndex_eq {r : Nat} (draw : r ≤ randMax) : keyIndex r = scaleRand maxKeyNum r := by
  have share : scaleRand maxKeyNum r ≤ 255 := by
    rcases scaleRand_keys draw with ⟨top, -⟩ | ⟨below, -⟩
    · omega
    · omega
  have valid : ¬ ((maxKeyNum : Int) ≤ 0 ∨ (0 : Int) < 0 ∨ (maxKeyNum : Int) < 0) := by decide
  rw [keyIndex, getRandValue, if_neg valid, Int.toNat_natCast]
  generalize scaleRand maxKeyNum r = share at *
  rw [int32_of_range (by omega) (by simp only [intMax]; omega)]
  omega

/-- The index lies outside the table for the last 64 draws of the range. -/
theorem keyIndex_top {r : Nat} (draw : r ≤ randMax) :
    keyIndex r = 255 ∧ 2 ^ 31 - 64 ≤ r ∨ (0 ≤ keyIndex r ∧ keyIndex r ≤ 254) ∧ r < 2 ^ 31 - 64 := by
  rw [keyIndex_eq draw]
  rcases scaleRand_keys draw with ⟨top, high⟩ | ⟨below, low⟩
  · exact .inl ⟨by omega, high⟩
  · exact .inr ⟨by omega, low⟩

theorem usedDraws_sub {ds : List Nat} : ∀ r ∈ usedDraws ds, r ∈ ds := by
  induction ds with
  | nil => simp [usedDraws]
  | cons d ds ih =>
    intro r hr
    rw [usedDraws] at hr
    split at hr
    · simp [List.mem_singleton.mp hr]
    · rcases List.mem_cons.mp hr with rfl | later
      · simp
      · simp [ih r later]

theorem KeyDraws.found {ds : List Nat} (h : KeyDraws ds) : ∃ r, ds.find? selects = some r := by
  obtain ⟨front, r, rfl, key⟩ := h.last
  apply Option.isSome_iff_exists.mp
  rw [List.find?_isSome]
  exact ⟨r, by simp, key⟩

theorem head_used (r : Nat) (rs : List Nat) : r ∈ usedDraws (r :: rs) := by
  rw [usedDraws]
  split <;> simp

section Loop

variable {r : Nat}

theorem keyIndex_valid (bounds : 0 ≤ keyIndex r ∧ keyIndex r ≤ 254) :
    ¬ (keyIndex r < 0 ∨ keyIndex r ≥ maxKeyNum) := by
  simp only [maxKeyNum]
  omega

theorem drawKey_key (bounds : 0 ≤ keyIndex r ∧ keyIndex r ≤ 254) (key : selects r = true)
    (rs : List Nat) : drawKey (keyIndex r) rs = .pure (keyIndex r).toNat := by
  have filled : (gKeyLib (keyIndex r).toNat).keyCode.length > 0 := of_decide_eq_true key
  cases rs <;> rw [drawKey, if_neg (keyIndex_valid bounds), if_pos filled] <;> rfl

theorem drawKey_again (bounds : 0 ≤ keyIndex r ∧ keyIndex r ≤ 254) (key : selects r = false) (d : Nat)
    (rs : List Nat) : drawKey (keyIndex r) (d :: rs) = drawKey (keyIndex d) rs := by
  have empty : ¬ (gKeyLib (keyIndex r).toNat).keyCode.length > 0 := of_decide_eq_false key
  rw [drawKey, if_neg (keyIndex_valid bounds), if_neg empty]
  rfl

/-- The loop ends at the first draw that selects a key. -/
theorem drawKey_selects {chosen : Nat} {rs : List Nat}
    (inside : ∀ d ∈ usedDraws (r :: rs), 0 ≤ keyIndex d ∧ keyIndex d ≤ 254)
    (found : (r :: rs).find? selects = some chosen) :
    drawKey (keyIndex r) rs = .pure (keyIndex chosen).toNat := by
  have bounds := inside r (head_used r rs)
  induction rs generalizing r with
  | nil =>
    have key := List.find?_some found
    obtain rfl : chosen = r := List.mem_singleton.mp (List.mem_of_find?_eq_some found)
    exact drawKey_key bounds key []
  | cons d rs ih =>
    cases key : selects r with
    | true =>
      obtain rfl : r = chosen := by simpa [key] using found
      exact drawKey_key bounds key _
    | false =>
      have later : ∀ x ∈ usedDraws (d :: rs), 0 ≤ keyIndex x ∧ keyIndex x ≤ 254 := by
        intro x hx
        apply inside x
        rw [usedDraws, key]
        exact List.mem_cons_of_mem r hx
      have next : (d :: rs).find? selects = some chosen := by
        rw [List.find?_cons, key] at found
        exact found
      rw [drawKey_again bounds key]
      exact ih later next (later d (head_used d rs))

end Loop

/-! ## The line -/

theorem ioevt_named : "ioevt".toList = "ioevt".toList ∨ "ioevt".toList = "ie".toList := .inl rfl

theorem keyPress_pressed : keyPress = keyPress ∨ keyPress = keyLongPress := .inl rfl

/-- `ioevt <client> <key> p`, whose client need not be written as one digit. -/
def pressLine (client : Client) (k : Text) (filled : k ≠ []) (word : ' ' ∉ k) : KeyLine where
  name := "ioevt".toList
  client := client
  keys := k
  action := keyPress
  named := ioevt_named
  pressed := keyPress_pressed
  filled := filled
  word := word

/-- The message that presses one key. -/
def press (client : Client) (code : Text) : MsgQ :=
  ⟨client, ⟨"ioevt".toList, .ioevtObj ⟨code :: List.replicate 9 [], keyPress⟩⟩⟩

theorem randomKeyLine_shape (t k : Text) :
    randomKeyLine t k = "ioevt".toList ++ ' ' :: (t ++ ' ' :: (k ++ ' ' :: keyPress)) := by
  have front : "ioevt ".toList = "ioevt".toList ++ [' '] := by decide
  have back : " p".toList = ' ' :: keyPress := by decide
  have space : cSpace = [' '] := by decide
  unfold randomKeyLine
  rw [space]
  generalize "ioevt ".toList = front', "ioevt".toList = word, " p".toList = action at front back ⊢
  subst front back
  simp

theorem ioevt_plain : "ioevt".toList ≠ [] ∧ ' ' ∉ "ioevt".toList ∧ '%' ∉ "ioevt".toList := by
  decide

theorem randomKeyLine_plain {t k : Text} (ht : '%' ∉ t) (hk : '%' ∉ k) : '%' ∉ randomKeyLine t k := by
  have last : '%' ∉ keyPress := by decide
  have blank : '%' ≠ ' ' := by decide
  rw [randomKeyLine_shape]
  simp only [List.mem_append, List.mem_cons, ht, hk, last, blank, ioevt_plain.2.2, or_self,
    not_false_eq_true]

theorem randomKeyLine_tokens {t k : Text} (plain : '%' ∉ t ∧ '%' ∉ k) (filled : t ≠ [] ∧ k ≠ [])
    (word : ' ' ∉ t ∧ ' ' ∉ k) (fits : (randomKeyLine t k).length < maxCmdLen) :
    lineTokens (randomKeyLine t k) = some ["ioevt".toList, t, k, keyPress] := by
  have blank : ' ' ∈ cSpace := by decide
  have action : ' ' ∉ keyPress := by decide
  have last : words cSpace keyPress = [keyPress] := words_word (not_space action) (by decide)
  have whole : (randomKeyLine t k).take (maxScContent - 1) = randomKeyLine t k := by
    apply List.take_of_length_le
    simp only [maxCmdLen, maxScContent] at fits ⊢
    omega
  rw [lineTokens, snprintf_plain (randomKeyLine_plain plain.1 plain.2), whole, randomKeyLine_shape,
    Option.map_some, words_cons (not_space ioevt_plain.2.1) ioevt_plain.1 blank,
    words_cons (not_space word.1) filled.1 blank, words_cons (not_space word.2) filled.2 blank, last]
  rfl

/-- The entry that a draw selects is one of the table, and its name is a key. -/
theorem selected_listed {r : Nat} (key : selects r = true) :
    ∃ p ∈ keyTable, p.2 = keyEntry r ∧ (keyEntry r).keyName ∈ p.2.texts := by
  have filled : 0 < (keyEntry r).keyCode.length := of_decide_eq_true key
  unfold keyEntry at filled ⊢
  generalize (keyIndex r).toNat = index at filled ⊢
  have listed : gKeyLib index ≠ ⟨[], []⟩ := by
    intro empty
    rw [empty] at filled
    exact absurd filled (by decide)
  exact ⟨_, gKeyLib_mem listed, rfl, List.mem_cons_self⟩

theorem selected_looked_up {r : Nat} (key : selects r = true) :
    lookedUp (keyEntry r).keyName = some [(keyEntry r).keyName] ∧
      keyCodes [(keyEntry r).keyName] = .ok [(keyEntry r).keyCode] := by
  obtain ⟨p, hp, same, text⟩ := selected_listed key
  obtain ⟨filled, noComma, -, noFormat, short⟩ := (keyTable_texts p hp).2.2 _ text
  constructor
  · have comma : ∀ c ∈ (keyEntry r).keyName, c ∉ cComma := by
      intro c hc inside
      obtain rfl : c = ',' := List.mem_singleton.mp inside
      exact noComma hc
    rw [lookedUp, snprintf_plain noFormat, Option.bind_some,
      List.take_of_length_le (by simp only [maxIoevt]; omega), snprintf_plain noFormat,
      List.take_of_length_le (by simp only [maxScContent]; omega), Option.map_some,
        words_word comma filled]
  · exact keyCodes_known (.cons ⟨p, hp, text, by rw [same]⟩ .nil)

section Press

variable {client : Client} {t : Text} {r : Nat}

/-- The line is read back as the key press it was made for. -/
theorem press_exec (host : Host) (depth : Nat) {w : World} (plain : '%' ∉ t) (filled : t ≠ [])
    (word : ' ' ∉ t) (number : atoi t = client) (key : selects r = true)
    (fits : (randomKeyLine t (keyEntry r).keyName).length < maxCmdLen)
    (testing : w.shared.thrCmdSendId ≠ 0) (queued : w.shared.sends host = true) :
    ∃ w', exec host (depth + 1) (randomKeyLine t (keyEntry r).keyName) w = .ok w' ∧
      w'.shared.queue = w.shared.queue ++ [press client (keyEntry r).keyCode] := by
  obtain ⟨p, hp, same, text⟩ := selected_listed key
  obtain ⟨some_key, -, noSpace, noFormat, -⟩ := (keyTable_texts p hp).2.2 _ text
  obtain ⟨looked, codes⟩ := selected_looked_up key
  have tokens := randomKeyLine_tokens ⟨plain, noFormat⟩ ⟨filled, some_key⟩ ⟨word, noSpace⟩ fits
  let l := pressLine client (keyEntry r).keyName some_key noSpace
  have code : getCmdCode "ioevt".toList = some 7 := l.name_plain.2.2.2.2
  obtain ⟨args, -, loaded, hrun⟩ := cmdProc_run host (exec host depth) tokens rfl code w
  have handler : perform host (exec host depth) (cmdProc (randomKeyLine t (keyEntry r).keyName)) w =
      perform host (exec host depth) (ioevt 7) { w with params := args } := by
    rw [perform, hrun]
    rfl
  have copied := ioevt_copies host (exec host depth) l (w := { w with params := args })
    loaded number testing
  obtain ⟨params, looks⟩ := sendKeys_looks host (exec host depth) l looked { w with params := args }
  obtain ⟨w', sent, queue⟩ := KeyLine.looked_up host (exec host depth) (l := l)
    (keyCodes [(keyEntry r).keyName]) (w := { w with params := params }) queued
  refine ⟨w', handler.trans (copied.trans (looks.trans sent)), ?_⟩
  rw [queue, codes]
  rfl

end Press

/-! ## The command -/

/-- `randomKey <text>` in the test mode, with the values that `rand` has for it
and room for the line it makes. -/
structure RandomKeyCall (host : Host) (w : World) where
  l : CmdLine .randomKey
  text : Text
  client : Client
  draws : List Nat
  args : l.args = [text]
  plain : '%' ∉ text
  number : atoi text = client
  given : host.rand w.shared.calls = draws
  keys : KeyDraws draws
  fits : ∀ r, draws.find? selects = some r →
    (randomKeyLine text (keyEntry r).keyName).length < maxCmdLen
  testing : w.shared.thrCmdSendId ≠ 0
  queued : w.shared.asked.sends host = true

/-- All indices lie inside the table, and one key press is queued: that of the
entry selected last. -/
def RandomKeyCall.Presses {host : Host} {w : World} (c : RandomKeyCall host w) (depth : Nat) : Prop :=
  (∀ r ∈ usedDraws c.draws, keyIndex r ≤ 254) ∧ ∃ r, c.draws.find? selects = some r ∧
    ∃ w', exec host (depth + 2) c.l.line w = .ok w' ∧
      w'.shared.queue = w.shared.queue ++ [press c.client (keyEntry r).keyCode]

/-- The handler from the first draw on, where the line it makes is carried out. -/
theorem sendRandomKey_leads {host : Host} {callee : Text → World → Except Fault World} {drawn : Int}
    {draws : List Nat} {n : Nat} {t : Text} {w v : World} (valid : drawn ≠ failed)
    (selected : drawKey drawn draws = .pure n) (client : w.params.param 1 = .ok t)
    (fits : (randomKeyLine t (gKeyLib n).keyName).length < maxCmdLen)
    (called : callee (randomKeyLine t (gKeyLib n).keyName) w = .ok v) :
    (sendRandomKey drawn draws).Leads (interp host callee) (fun _ => False)
      (fun _ w' => w'.shared.queue = v.shared.queue) w := by
  unfold sendRandomKey
  rw [if_neg valid, selected, Prog.pure_bind']
  apply param_leads client
  generalize randomKeyLine t (gKeyLib n).keyName = cmdRandomKey at fits called ⊢
  rw [Cmd.sprintf, if_pos fits]
  apply Prog.Leads.now (r := ()) (t := v)
  · simp only [interp, called, writing]
  · rfl

namespace RandomKeyCall

variable {host : Host} {w : World} (c : RandomKeyCall host w)

/-- The client number is a token. -/
theorem word : c.text ≠ [] ∧ ' ' ∉ c.text := by
  have tokens := c.l.tokens
  rw [c.args, lineTokens] at tokens
  obtain ⟨t, -, taken⟩ := Option.map_eq_some_iff.mp tokens
  have listed : c.text ∈ words cSpace t := by
    apply List.mem_of_mem_take (i := maxToken)
    rw [taken]
    simp
  refine ⟨words_filled listed, ?_⟩
  intro blank
  exact words_plain listed ' ' blank (by decide)

theorem presses (depth : Nat) (inside : ∀ r ∈ usedDraws c.draws, 0 ≤ keyIndex r ∧ keyIndex r ≤ 254) :
    c.Presses depth := by
  obtain ⟨chosen, found⟩ := c.keys.found
  refine ⟨fun r used => (inside r used).2, chosen, found, ?_⟩
  apply exec_leads
  apply c.l.leads
  intro p loaded
  have count : p.gParamNum = 1 := by simpa [c.args] using c.l.found_count _ p loaded
  have client : p.param 1 = .ok c.text := c.l.found_arg (by simp [c.args]) _ p loaded
  obtain ⟨first, rest, hdraws⟩ : ∃ first rest, c.draws = first :: rest := by
    obtain ⟨front, last, hdraws, -⟩ := c.keys.last
    rw [hdraws]
    cases front with
    | nil => exact ⟨last, [], rfl⟩
    | cons first front => exact ⟨first, front ++ [last], rfl⟩
  have given := c.given.trans hdraws
  have fits := c.fits chosen found
  have key := List.find?_some found
  rw [hdraws] at inside found
  have bounds := inside first (head_used first rest)
  have valid : keyIndex first ≠ failed := by
    simp only [failed]
    omega
  have selected := drawKey_selects inside found
  obtain ⟨v, called, queue⟩ :=
    press_exec host depth (w := ⟨p, w.shared.asked⟩) c.plain c.word.1 c.word.2
    c.number key fits c.testing c.queued
  apply Prog.Leads.now rfl
  rw [if_neg (by simp [count])]
  apply Prog.Leads.bind_op
  · intro draws t hstep
    obtain ⟨rfl, rfl⟩ : host.rand w.shared.calls = draws ∧ (⟨p, w.shared.asked⟩ : World) = t := by
      cases hstep
      exact ⟨rfl, rfl⟩
    rw [given]
    dsimp only
    unfold keyIndex at valid selected
    generalize getRandValue 0 maxKeyNum first = drawn at valid selected ⊢
    apply (sendRandomKey_leads valid selected client fits called).mono
    intro _ w' same
    rw [same, queue]
    rfl
  · intro e hstep
    cases hstep

end RandomKeyCall

/-- The key is pressed as it should be exactly when no draw up to the first that
selects a key is one of the last 64 of the range. -/
theorem random_key_iff {host : Host} {w : World} (c : RandomKeyCall host w) (depth : Nat) :
    c.Presses depth ↔ ∀ r ∈ usedDraws c.draws, r < 2 ^ 31 - 64 := by
  have index (r : Nat) (used : r ∈ usedDraws c.draws) :=
    keyIndex_top (c.keys.draws r (usedDraws_sub r used))
  constructor
  · rintro ⟨inside, -⟩ r used
    rcases index r used with ⟨outside, -⟩ | ⟨-, low⟩
    · have := inside r used
      omega
    · exact low
  · intro low
    apply c.presses
    intro r used
    rcases index r used with ⟨-, top⟩ | ⟨inside, -⟩
    · have := low r used
      omega
    · exact inside

/-- `randomKey 1` with these values of `rand`. -/
def keyCall (draws : List Nat) (keys : KeyDraws draws)
    (fits : ∀ r ∈ draws, (randomKeyLine "1".toList (keyEntry r).keyName).length < maxCmdLen) :
    RandomKeyCall { willing with rand := fun _ => draws } testing where
  l := {
    line := "randomKey 1".toList
    name := "randomKey".toList
    args := ["1".toList]
    cmdNum := 13
    tokens := by decide +kernel
    code := by decide
    func := rfl }
  text := "1".toList
  client := tenKeys.client
  draws := draws
  args := rfl
  plain := by decide
  number := by decide
  given := rfl
  keys := keys
  fits := fun r found => fits r (List.mem_of_find?_eq_some found)
  testing := by decide
  queued := rfl

/-- The draw of key 9, and `RAND_MAX` before it. -/
theorem nine_selects : selects 12632256 = true := by decide +kernel

theorem nine_keys : KeyDraws [12632256] := ⟨by decide, [], 12632256, rfl, nine_selects⟩

theorem top_keys : KeyDraws [2 ^ 31 - 1, 12632256] :=
  ⟨by decide, [2 ^ 31 - 1], 12632256, rfl, nine_selects⟩

theorem random_key_nine : (keyCall [12632256] nine_keys (by decide +kernel)).Presses 0 :=
  (random_key_iff (keyCall [12632256] nine_keys (by decide +kernel)) 0).mpr (by decide +kernel)

/-- With `RAND_MAX` the first draw reads the entry after the last. -/
theorem top_outside : ¬ (keyCall [2 ^ 31 - 1, 12632256] top_keys (by decide +kernel)).Presses 0 := by
  rintro ⟨inside, -⟩
  have first := inside (2 ^ 31 - 1) (head_used _ _)
  have outside : keyIndex (2 ^ 31 - 1) = 255 := by decide +kernel
  rw [outside] at first
  exact absurd first (by decide)

end AutoTest
