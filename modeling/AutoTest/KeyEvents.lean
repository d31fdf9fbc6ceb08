import Mathlib.Data.List.Forall2
import AutoTest.World

/-!
# Which keys an `ioevt` line queues

The list of keys passes through a copy of nineteen characters before it is
split and looked up.

* `keyCodes_known`: a list of known keys yields their codes, one for each key.
* `cut_codes`: what is left of a list that does not fit yields another list of
  codes, unless the last key was `53` and only its `3` is lost.
* `ioevt_faithful_iff`: a line does what its list of keys says exactly when a
  list of known keys fits, and an unknown key of any other stands in its first
  nineteen characters.
-/

namespace AutoTest

open CString Strtok Program

/-! ## The key table -/

/-- `k` is the name or the code of a key with this code. -/
def KeyHasCode (k code : Text) : Prop := ∃ p ∈ keyTable, k ∈ p.2.texts ∧ p.2.keyCode = code

instance (k code : Text) : Decidable (KeyHasCode k code) :=
  inferInstanceAs (Decidable (∃ p ∈ keyTable, _ ∧ _))

def KnownKey (k : Text) : Prop := ∃ code, KeyHasCode k code

theorem keyTable_texts : ∀ p ∈ keyTable, p.2.keyCode ≠ [] ∧
    p.2.keyCode.take (maxKeyLenth - 1) = p.2.keyCode ∧
    ∀ k ∈ p.2.texts, k ≠ [] ∧ ',' ∉ k ∧ ' ' ∉ k ∧ '%' ∉ k ∧ k.length ≤ 7 := by
  decide +kernel

/-- Only one key text has a proper part with the same code: key 5 has code 53. -/
theorem keyTable_parts : ∀ p ∈ keyTable, ∀ k ∈ p.2.texts, ∀ part ∈ k.inits, part ≠ k →
    ∀ q ∈ keyTable, part ∈ q.2.texts → q.2.keyCode = p.2.keyCode →
      part = "5".toList ∧ k = "53".toList := by
  decide +kernel

theorem getKeyCode_known {k code : Text} (h : KeyHasCode k code) :
    ∃ index, getKeyCode k = some index ∧ (gKeyLib index).keyCode.take (maxKeyLenth - 1) = code := by
  obtain ⟨p, hp, hk, rfl⟩ := h
  obtain ⟨hindex, hentry⟩ := getKeyCode_table p hp k hk
  exact ⟨p.1, hindex, by rw [hentry]; exact (keyTable_texts p hp).2.1⟩

theorem known_of_getKeyCode {k : Text} (filled : k ≠ []) {index : Nat}
    (h : getKeyCode k = some index) :
    KeyHasCode k ((gKeyLib index).keyCode.take (maxKeyLenth - 1)) := by
  have hk : k ∈ (gKeyLib index).texts := by
    have := List.find?_some h
    simpa using this
  have entry : gKeyLib index ≠ ⟨[], []⟩ := by
    intro empty
    simp [empty, AtKey.texts] at hk
    exact filled hk
  have hp := gKeyLib_mem entry
  exact ⟨_, hp, hk, (keyTable_texts _ hp).2.1.symm⟩

/-- The codes of a list of keys, in order. -/
abbrev KeysHaveCodes (ks codes : List Text) : Prop := List.Forall₂ KeyHasCode ks codes

theorem keyCodes_known {ks codes : List Text} (h : KeysHaveCodes ks codes) :
    keyCodes ks = .ok codes := by
  induction h with
  | nil => rfl
  | cons head _ ih =>
    obtain ⟨index, hindex, hcode⟩ := getKeyCode_known head
    simp [keyCodes, hindex, ih, hcode]

theorem keyCodes_ok {ks codes : List Text} (filled : ∀ k ∈ ks, k ≠ [])
    (h : keyCodes ks = .ok codes) : KeysHaveCodes ks codes := by
  induction ks generalizing codes with
  | nil =>
    obtain rfl : [] = codes := by simpa [keyCodes] using h
    exact .nil
  | cons k ks ih =>
    simp only [keyCodes] at h
    cases hindex : getKeyCode k with
    | none => simp [hindex] at h
    | some index =>
      simp only [hindex] at h
      cases htail : keyCodes ks with
      | error e => simp [htail] at h
      | ok tail =>
        simp only [htail, Except.ok.injEq] at h
        subst h
        exact .cons (known_of_getKeyCode (filled k (by simp)) hindex)
          (ih (fun d hd => filled d (by simp [hd])) htail)

/-- An unknown key is what makes the lookup fail. -/
theorem keyCodes_error_iff {ks : List Text} :
    (∃ k, keyCodes ks = .error k) ↔ ∃ k ∈ ks, getKeyCode k = none := by
  induction ks with
  | nil => simp [keyCodes]
  | cons k ks ih =>
    simp only [keyCodes]
    cases hindex : getKeyCode k with
    | none => simp [hindex]
    | some index =>
      cases htail : keyCodes ks with
      | error e => simpa [hindex, htail] using ih
      | ok tail => simpa [hindex, htail] using ih

/-- A list that was cut has other codes, with one exception. -/
theorem cut_codes {ks ps codes : List Text} (cut : CutShort ks ps) (whole : KeysHaveCodes ks codes)
    (left : KeysHaveCodes ps codes) :
    ∃ front, ks = front ++ ["53".toList] ∧ ps = front ++ ["5".toList] := by
  induction cut generalizing codes with
  | before ks h =>
    cases left
    cases whole
    exact absurd rfl h
  | inside k part ks hp some_left proper =>
    obtain - | ⟨hpart, rest⟩ := left
    cases rest
    obtain - | ⟨hk, none_left⟩ := whole
    cases none_left
    obtain ⟨p, hpTable, hkText, hpCode⟩ := hk
    obtain ⟨q, hqTable, hpartText, hqCode⟩ := hpart
    obtain ⟨rfl, rfl⟩ := keyTable_parts p hpTable k hkText part (List.mem_inits _ _ |>.mpr hp) proper
      q hqTable hpartText (hqCode.trans hpCode.symm)
    exact ⟨[], rfl, rfl⟩
  | after k h ih =>
    obtain - | ⟨-, restLeft⟩ := left
    obtain - | ⟨-, restWhole⟩ := whole
    obtain ⟨front, rfl, rfl⟩ := ih restWhole restLeft
    exact ⟨k :: front, rfl, rfl⟩

theorem not_space {t : Text} (h : ' ' ∉ t) : ∀ c ∈ t, c ∉ cSpace := by
  have only : ∀ c, c ∈ cSpace → c = ' ' := by
    intro c hc
    exact List.mem_singleton.mp hc
  intro c hc blank
  rw [only c blank] at hc
  exact h hc

/-! ## The copy -/

/-- The pieces of a list of keys that the lookup sees. -/
def seenKeys (keys : Text) : List Text := words cComma (keys.take (2 * maxIoevt - 1))

/-- The list fits the copy, or loses only the `3` of a last `53`. -/
def Fits (ks : List Text) : Prop :=
  (joined ',' ks).length ≤ 19 ∨
    (joined ',' ks).length = 20 ∧ ∃ front, ks = front ++ ["53".toList]

section Copy

variable {ks codes : List Text}

theorem known_plain (h : KeysHaveCodes ks codes) :
    ∀ k ∈ ks, k ≠ [] ∧ ',' ∉ k ∧ ' ' ∉ k ∧ '%' ∉ k ∧ k.length ≤ 7 := by
  induction h with
  | nil => simp
  | cons head _ ih =>
    obtain ⟨p, hp, hk, -⟩ := head
    simp only [List.mem_cons, forall_eq_or_imp]
    exact ⟨(keyTable_texts p hp).2.2 _ hk, ih⟩

theorem KeysHaveCodes.last (h : KeysHaveCodes (ks ++ ["53".toList]) codes) :
    KeysHaveCodes (ks ++ ["5".toList]) codes := by
  induction ks generalizing codes with
  | nil =>
    obtain - | ⟨head, rest⟩ := h
    cases rest
    obtain ⟨p, hp, hk, rfl⟩ := head
    have five : ∀ p ∈ keyTable, "53".toList ∈ p.2.texts → KeyHasCode "5".toList p.2.keyCode := by
      decide +kernel
    exact .cons (five p hp hk) .nil
  | cons k ks ih =>
    obtain - | ⟨head, rest⟩ := h
    exact .cons head (ih rest)

theorem seen_codes_iff (h : KeysHaveCodes ks codes) :
    keyCodes (seenKeys (joined ',' ks)) = .ok codes ↔ Fits ks := by
  have plain := known_plain h
  have noComma : ∀ k ∈ ks, ',' ∉ k := fun k hk => (plain k hk).2.1
  have filled : ∀ k ∈ ks, k ≠ [] := fun k hk => (plain k hk).1
  constructor
  · intro seen
    by_cases fits : (joined ',' ks).length ≤ 19
    · exact .inl fits
    · have cut := words_cut noComma filled (n := 19) (by omega)
      have left := keyCodes_ok (fun w hw => words_filled hw) seen
      obtain ⟨front, rfl, hseen⟩ := cut_codes cut h left
      have shorter := known_plain h.last
      have grown := joined_concat (c := ',') front "5".toList '3'
      refine .inr ⟨?_, front, rfl⟩
      apply Classical.by_contradiction
      intro other
      have longer : 19 < (joined ',' (front ++ ["5".toList])).length := by
        have := congrArg List.length grown
        simp only [List.length_append, List.length_singleton] at this
        have same : "5".toList ++ ['3'] = "53".toList := rfl
        rw [same] at this
        omega
      have again := words_cut (fun k hk => (shorter k hk).2.1) (fun k hk => (shorter k hk).1) longer
      have cutSame : (joined ',' (front ++ ["53".toList])).take 19 =
          (joined ',' (front ++ ["5".toList])).take 19 := by
        rw [show "53".toList = "5".toList ++ ['3'] from rfl, grown,
          List.take_append_of_le_length (by omega)]
      rw [← cutSame] at again
      exact (hseen ▸ again).irrefl
  · rintro (fits | ⟨hlen, front, rfl⟩)
    · have whole : (joined ',' ks).take 19 = joined ',' ks := List.take_of_length_le fits
      rw [seenKeys, show 2 * maxIoevt - 1 = 19 from rfl, whole, show cComma = [','] from rfl,
        words_joined noComma filled]
      exact keyCodes_known h
    · have shorter := known_plain h.last
      have grown := joined_concat (c := ',') front "5".toList '3'
      rw [show "5".toList ++ ['3'] = "53".toList from rfl] at grown
      have nineteen : (joined ',' (front ++ ["5".toList])).length = 19 := by
        have := congrArg List.length grown
        simp only [List.length_append, List.length_singleton] at this
        omega
      have lost : (joined ',' (front ++ ["53".toList])).take 19 =
          joined ',' (front ++ ["5".toList]) := by
        rw [grown, ← nineteen, List.take_left']
        rfl
      rw [seenKeys, show 2 * maxIoevt - 1 = 19 from rfl, lost, show cComma = [','] from rfl,
        words_joined (fun k hk => (shorter k hk).2.1) fun k hk => (shorter k hk).1]
      exact keyCodes_known h.last

end Copy

/-! ## The handler -/

/-- `ioevt c keys a`, or the same with the nickname. -/
structure KeyLine where
  name : Text
  client : Client
  keys : Text
  action : Text
  named : name = "ioevt".toList ∨ name = "ie".toList
  pressed : action = keyPress ∨ action = keyLongPress
  filled : keys ≠ []
  word : ' ' ∉ keys

namespace KeyLine

variable (l : KeyLine)

def line : Text := l.name ++ ' ' :: (toText l.client ++ ' ' :: (l.keys ++ ' ' :: l.action))

/-- The message for a list of key codes. -/
def message (codes : List Text) : MsgQ :=
  ⟨l.client, ⟨"ioevt".toList, .ioevtObj
    ⟨codes ++ List.replicate (maxIoevt - codes.length) [], l.action⟩⟩⟩

end KeyLine

section Handler

variable (host : Host) (callee : Text → World → Except Fault World)

theorem client_text (n : Client) : atoi (toText n) = n ∧ (toText n).length = 1 ∧
    ' ' ∉ toText n ∧ '%' ∉ toText n := by
  revert n
  decide +kernel

theorem cmdCode_ioevt {name : Text} (named : name = "ioevt".toList ∨ name = "ie".toList) :
    cmdCode 7 name = .pure "ioevt".toList := by
  rcases named with rfl | rfl <;> rfl

theorem action_text {action : Text} (pressed : action = keyPress ∨ action = keyLongPress) :
    Cmd.snprintf maxActLenth action = .pure action := by
  rcases pressed with rfl | rfl <;> rfl

/-- The rest of the handler, from the copy of the keys on. -/
def sendKeys (l : KeyLine) (k : Text) : Cmd Unit := do
  let keys ← Cmd.snprintf (2 * maxIoevt) k
  let ioevtParam ← Cmd.getTokens keys cComma
  if ioevtParam.length > maxIoevt then Cmd.fault .bounds
  else
    match keyCodes ioevtParam with
    | .error k => Cmd.print ("keycode not found:".toList ++ k ++ "\n".toList)
    | .ok codes => msgsndOrSay (l.message codes) "msg ioevt send failed!"

/-- The handler up to the copy of the keys, on a line with four tokens. -/
theorem ioevt_copies (l : KeyLine) {number k : Text} {old : Params} {w : World}
    (loaded : Params.Loaded [l.name, number, k, l.action] old w.params)
    (hatoi : atoi number = l.client) (testing : w.shared.thrCmdSendId ≠ 0) :
    perform host callee (ioevt 7) w = perform host callee (sendKeys l k) w := by
  have count : w.params.gParamNum = 3 := by simpa using loaded.count
  have first : w.params.param 0 = .ok l.name := loaded.own 0 (by simp)
  have second : w.params.param 1 = .ok number := loaded.own 1 (by simp)
  have third : w.params.param 2 = .ok k := loaded.own 2 (by simp)
  have fourth : w.params.param 3 = .ok l.action := loaded.own 3 (by simp)
  have valid : ¬ (l.action ≠ keyPress ∧ l.action ≠ keyLongPress) := by
    rcases l.pressed with h | h <;> simp [h]
  have inside : ¬ ((l.client : Int) > maxClient - 1 ∨ (l.client : Int) < minClient) := by
    simp only [maxClient, minClient]
    omega
  have again : ¬ ((l.client : Int) > maxClient ∨ (l.client : Int) < minClient) := by
    simp only [maxClient, minClient]
    omega
  unfold perform
  simp only [ioevt, Cmd.paramNum, Cmd.param, Cmd.getSendThreadID, Prog.op_bind, Prog.pure_bind',
    Prog.run, interp, sharedStep, reading, count, first, second, third, fourth, valid, hatoi, inside,
    again, testing, cmdCode_ioevt l.named, action_text l.pressed, ne_eq,
    not_true_eq_false, ↓reduceIte]
  rfl

/-- The pieces looked up: the keys are formatted once more when they are copied
and once more when they are split. -/
def lookedUp (k : Text) : Option (List Text) :=
  (CString.snprintf (2 * maxIoevt) k).bind fun t =>
    (CString.snprintf maxScContent t).map (words cComma)

theorem lookedUp_few {k : Text} {pieces : List Text} (h : lookedUp k = some pieces) :
    pieces.length ≤ maxIoevt := by
  obtain ⟨t, ht, hpieces⟩ := Option.bind_eq_some_iff.mp h
  obtain ⟨u, hu, rfl⟩ := Option.map_eq_some_iff.mp hpieces
  have short := snprintf_length ht
  have shorter := snprintf_length_le hu
  have words_le := length_words_le cComma u
  simp only [maxIoevt] at short ⊢
  omega

theorem sendKeys_undefined (l : KeyLine) {k : Text} (h : lookedUp k = none) (w : World) :
    perform host callee (sendKeys l k) w = .error .format := by
  unfold lookedUp at h
  cases ht : CString.snprintf (2 * maxIoevt) k with
  | none =>
    rw [sendKeys, Cmd.snprintf_none ht]
    rfl
  | some t =>
    have hu : CString.snprintf maxScContent t = none := by simpa [ht] using h
    have stop : interp host callee (.getTokens t cComma) w = .error .format := by
      simp only [interp, Params.getTokens, hu]
    rw [sendKeys, Cmd.snprintf_some ht, Prog.pure_bind', perform, Cmd.getTokens, Prog.op_bind,
      Prog.run_op_error stop]

theorem sendKeys_looks (l : KeyLine) {k : Text} {pieces : List Text}
    (h : lookedUp k = some pieces) (w : World) : ∃ params, perform host callee (sendKeys l k) w =
      perform host callee (match keyCodes pieces with
        | .error k => Cmd.print ("keycode not found:".toList ++ k ++ "\n".toList)
        | .ok codes => msgsndOrSay (l.message codes) "msg ioevt send failed!")
      { w with params := params } := by
  have few := lookedUp_few h
  obtain ⟨t, ht, hpieces⟩ := Option.bind_eq_some_iff.mp h
  obtain ⟨u, hu, rfl⟩ := Option.map_eq_some_iff.mp hpieces
  obtain ⟨tmp, htokens⟩ := Params.getTokens_own cComma hu w.params
  have whole : (words cComma u).take maxToken = words cComma u :=
    List.take_of_length_le (by simp only [maxIoevt, maxToken] at *; omega)
  have step : interp host callee (.getTokens t cComma) w =
      .ok (words cComma u, { w with params := { w.params with tmp := tmp } }) := by
    simp only [interp, htokens, whole]
  refine ⟨{ w.params with tmp := tmp }, ?_⟩
  rw [sendKeys, Cmd.snprintf_some ht, Prog.pure_bind', perform, Cmd.getTokens, Prog.op_bind,
    Prog.run_op_ok step]
  simp only [Prog.pure_bind', if_neg (Nat.not_lt.mpr few)]
  rfl

/-- What a line queues, where every formatting of its keys is defined. -/
def KeyLine.outcome (l : KeyLine) : Option (List MsgQ) :=
  match format l.keys with
  | none => none
  | some k =>
    if 250 < l.name.length + k.length then some []
    else
      match lookedUp k with
      | none => none
      | some pieces =>
        match keyCodes pieces with
        | .error _ => some []
        | .ok codes => some [l.message codes]

/-- The line is processed and queues exactly these messages. -/
def Queues (l : KeyLine) (w : World) (ms : List MsgQ) : Prop :=
  ∃ w', perform host callee (cmdProc l.line) w = .ok w' ∧ w'.shared.queue = w.shared.queue ++ ms

namespace KeyLine

variable (l : KeyLine)

theorem name_plain : l.name ≠ [] ∧ ' ' ∉ l.name ∧ '%' ∉ l.name ∧ l.name.length ≤ 5 ∧
    getCmdCode l.name = some 7 := by
  rcases l.named with h | h <;> rw [h] <;> decide

theorem action_plain : l.action.length = 1 ∧ ' ' ∉ l.action ∧ '%' ∉ l.action := by
  rcases l.pressed with h | h <;> rw [h] <;> decide

/-- The line with its keys formatted. -/
def formatted (k : Text) : Text :=
  l.name ++ ' ' :: (toText l.client ++ ' ' :: (k ++ ' ' :: l.action))

theorem format_line : format l.line = (format l.keys).map l.formatted := by
  have blank : ' ' ≠ '%' := by decide
  have ending : format (' ' :: l.action) = some (' ' :: l.action) := by
    rw [format_cons blank, format_plain l.action_plain.2.2]
    rfl
  rw [line, format_plain_append l.name_plain.2.2.1, format_cons blank,
    format_plain_append (client_text l.client).2.2.2, format_cons blank, format_append_stop _ blank,
    ending]
  cases format l.keys <;> simp [formatted]

theorem formatted_length (k : Text) : (l.formatted k).length = l.name.length + k.length + 5 := by
  have := (client_text l.client).2.1
  have := l.action_plain.1
  simp only [formatted, List.length_append, List.length_cons]
  omega

theorem words_front (rest : Text) :
    words cSpace (l.name ++ ' ' :: (toText l.client ++ ' ' :: rest)) =
      l.name :: toText l.client :: words cSpace rest := by
  have blank : ' ' ∈ cSpace := by decide
  have hclient := client_text l.client
  have filled : toText l.client ≠ [] := by
    intro empty
    simp [empty] at hclient
  rw [words_cons (not_space l.name_plain.2.1) l.name_plain.1 blank,
    words_cons (not_space hclient.2.2.1) filled blank]

section Formatted

variable {k : Text} (hk : format l.keys = some k)
include hk

theorem formatted_word : k ≠ [] ∧ ∀ c ∈ k, c ∉ cSpace := by
  have hspace : ' ' ∉ k := fun blank => l.word (format_mem hk blank)
  exact ⟨format_filled hk l.filled, not_space hspace⟩

theorem tokens_short (short : ¬ 250 < l.name.length + k.length) :
    lineTokens l.line = some [l.name, toText l.client, k, l.action] := by
  obtain ⟨filled, hword⟩ := l.formatted_word hk
  have whole : (l.formatted k).take (maxScContent - 1) = l.formatted k := by
    apply List.take_of_length_le
    rw [formatted_length]
    simp only [maxScContent]
    omega
  have last : words cSpace l.action = [l.action] := by
    apply words_word
    · exact not_space l.action_plain.2.1
    · intro empty
      simpa [empty] using l.action_plain.1
  rw [lineTokens, snprintf, format_line, hk]
  simp only [Option.map_some, whole]
  rw [formatted, words_front, words_cons hword filled (by decide), last]
  rfl

/-- Of a longer line the action is cut off. -/
theorem tokens_long (long : 250 < l.name.length + k.length) :
    ∃ part, lineTokens l.line = some [l.name, toText l.client, part] := by
  obtain ⟨filled, hword⟩ := l.formatted_word hk
  have hname := l.name_plain.2.2.2.1
  have hclient := (client_text l.client).2.1
  let room := 252 - l.name.length
  have front : (l.formatted k).take (maxScContent - 1) =
      l.name ++ ' ' :: (toText l.client ++ ' ' :: (k ++ ' ' :: l.action).take room) := by
    have hroom : maxScContent - 1 = l.name.length +
        (1 + ((toText l.client).length + (1 + room))) := by
      simp only [maxScContent, room]
      omega
    rw [hroom, formatted, List.take_length_add_append, Nat.add_comm 1, List.take_succ_cons,
      List.take_length_add_append, Nat.add_comm 1, List.take_succ_cons]
  have rest : words cSpace ((k ++ ' ' :: l.action).take room) = [k.take room] := by
    rcases Nat.lt_or_ge k.length room with fits | cut
    · have exactly : room = k.length + 1 := by
        simp only [room] at fits ⊢
        omega
      have before : (k ++ ' ' :: l.action).take (k.length + 1) = k ++ ' ' :: [] := by
        rw [List.take_length_add_append]
        rfl
      rw [exactly, before, words_cons hword filled (by decide), words_nil,
        List.take_of_length_le (by omega)]
    · rw [List.take_append_of_le_length cut]
      apply words_word
      · exact fun c hc => hword c (List.mem_of_mem_take hc)
      · intro empty
        have := congrArg List.length empty
        simp only [List.length_take, List.length_nil, room] at this cut
        omega
  refine ⟨k.take room, ?_⟩
  rw [lineTokens, snprintf, format_line, hk]
  simp only [Option.map_some, front]
  rw [words_front, rest]
  rfl

end Formatted

variable {l}

/-- The line as far as its tokens, which name the handler. -/
theorem runs {argv : List Text} (tokens : lineTokens l.line = some (l.name :: argv)) (w : World) :
    ∃ p, Params.Loaded (l.name :: argv) w.params p ∧
      perform host callee (cmdProc l.line) w = perform host callee
        (ioevt 7) { w with params := p } := by
  obtain ⟨p, -, loaded, hrun⟩ := cmdProc_run host callee tokens rfl l.name_plain.2.2.2.2 w
  refine ⟨p, loaded, ?_⟩
  rw [perform, hrun]
  rfl

theorem queues_long {k : Text} (hk : format l.keys = some k) (long : 250 < l.name.length + k.length)
    (w : World) : ∃ w', perform host callee (cmdProc l.line) w = .ok w' ∧
      w'.shared.queue = w.shared.queue := by
  obtain ⟨part, tokens⟩ := l.tokens_long hk long
  obtain ⟨p, loaded, hrun⟩ := l.runs host callee tokens w
  have count : p.gParamNum = 2 := by simpa using loaded.count
  rw [hrun]
  simp [perform, ioevt, Cmd.paramNum, wrongParameter, Cmd.say, Cmd.printLine, Cmd.print, Prog.run,
    interp, sharedStep, count]

theorem undefined (hk : format l.keys = none) (w : World) :
    perform host callee (cmdProc l.line) w = .error .format := by
  have copy : snprintf maxScContent l.line = none := by
    simp [CString.snprintf, l.format_line, hk]
  simp [perform, cmdProc, Cmd.setParams, Prog.run, interp, writing, Params.load, copy]

/-- What is queued once the keys are looked up. -/
theorem looked_up (found : Except Text (List Text)) {w : World}
    (queued : w.shared.sends host = true) :
    ∃ w', perform host callee (match found with
        | .error k => Cmd.print ("keycode not found:".toList ++ k ++ "\n".toList)
        | .ok codes => msgsndOrSay (l.message codes) "msg ioevt send failed!") w = .ok w' ∧
      w'.shared.queue = w.shared.queue ++ (match found with
        | .error _ => []
        | .ok codes => [l.message codes]) := by
  cases found with
  | error k => simp [perform, Cmd.print, Prog.run, interp, sharedStep]
  | ok codes =>
    have sent : (0 : Int) ≠ failed := by decide
    simp [perform, msgsndOrSay, Cmd.msgsnd, Prog.run, interp, sharedStep, queued, sent, Shared.asked]

/-- A line processed in test mode queues its outcome and nothing else. -/
theorem queues_iff {w : World} (testing : w.shared.thrCmdSendId ≠ 0)
    (queued : w.shared.sends host = true) (ms : List MsgQ) :
    Queues host callee l w ms ↔ l.outcome = some ms := by
  have settled {ms' : List MsgQ} (h : Queues host callee l w ms') :
      Queues host callee l w ms ↔ some ms' = some ms := by
    obtain ⟨w', hrun, hqueue⟩ := h
    constructor
    · rintro ⟨w'', hrun', hqueue'⟩
      obtain rfl : w' = w'' := by simpa [hrun] using hrun'
      rw [hqueue] at hqueue'
      rw [List.append_cancel_left hqueue']
    · intro same
      cases same
      exact ⟨w', hrun, hqueue⟩
  have refuted {f : Fault} (h : perform host callee (cmdProc l.line) w = .error f) :
      Queues host callee l w ms ↔ none = some ms := by
    constructor
    · rintro ⟨w', hrun, -⟩
      simp [h] at hrun
    · intro impossible
      cases impossible
  unfold outcome
  cases hk : format l.keys with
  | none => exact refuted (undefined host callee hk w)
  | some k =>
    by_cases long : 250 < l.name.length + k.length
    · obtain ⟨w', hrun, hqueue⟩ := queues_long host callee hk long w
      simp only [long, ↓reduceIte]
      exact settled ⟨w', hrun, by simpa using hqueue⟩
    · obtain ⟨p, loaded, hrun⟩ := runs host callee (l.tokens_short hk long) w
      rw [ioevt_copies host callee l (w := { w with params := p }) loaded (client_text l.client).1
        testing] at hrun
      simp only [long, ↓reduceIte]
      cases hlook : lookedUp k with
      | none => exact refuted (hrun.trans (sendKeys_undefined host callee l hlook _))
      | some pieces =>
        obtain ⟨params, hsend⟩ := sendKeys_looks host callee l hlook { w with params := p }
        obtain ⟨w', hlast, hqueue⟩ := looked_up host callee (l := l) (keyCodes pieces)
          (w := { w with params := params }) queued
        have found := settled ⟨w', hrun.trans (hsend.trans hlast), hqueue⟩
        cases hcodes : keyCodes pieces with
        | error e => simpa [hcodes] using found
        | ok codes => simpa [hcodes] using found

end KeyLine

end Handler

/-! ## Faithful lines -/

theorem codes_filled {ks codes : List Text} (h : KeysHaveCodes ks codes) : ∀ c ∈ codes, c ≠ [] := by
  induction h with
  | nil => simp
  | cons head _ ih =>
    obtain ⟨p, hp, -, rfl⟩ := head
    simp only [List.mem_cons, forall_eq_or_imp]
    exact ⟨(keyTable_texts p hp).1, ih⟩

namespace KeyLine

variable {l : KeyLine}

/-- The unused places hold no code, so a message determines its codes. -/
theorem message_injective {codes codes' : List Text} (filled : ∀ c ∈ codes, c ≠ [])
    (filled' : ∀ c ∈ codes', c ≠ []) (h : l.message codes = l.message codes') : codes = codes' := by
  have used {cs : List Text} (hcs : ∀ c ∈ cs, c ≠ []) (n : Nat) :
      (cs ++ List.replicate n ([] : Text)).filter (· ≠ []) = cs := by
    rw [List.filter_append, List.filter_eq_self.mpr (by simpa using hcs)]
    simp
  have padded : codes ++ List.replicate (maxIoevt - codes.length) [] =
      codes' ++ List.replicate (maxIoevt - codes'.length) [] := by
    simpa [message] using h
  rw [← used filled, padded, used filled']

/-- The keys are those of `ks`, between one and ten and all known. -/
structure Lists (l : KeyLine) (ks codes : List Text) : Prop where
  keys : l.keys = joined ',' ks
  some_key : 1 ≤ ks.length
  room : ks.length ≤ maxIoevt
  known : KeysHaveCodes ks codes

/-- No key, too many keys or an unknown one. -/
def Bad (l : KeyLine) : Prop :=
  words cComma l.keys = [] ∨ maxIoevt < (words cComma l.keys).length ∨
    ∃ k ∈ words cComma l.keys, ¬ KnownKey k

/-- An unknown key is among the pieces looked up, or the action is cut off. -/
def Refused (l : KeyLine) : Prop :=
  ∃ k, format l.keys = some k ∧ (250 < l.name.length + k.length ∨
    ∃ pieces, lookedUp k = some pieces ∧ ∃ piece ∈ pieces, getKeyCode piece = none)

theorem outcome_empty_iff : l.outcome = some [] ↔ l.Refused := by
  unfold outcome Refused
  cases hk : format l.keys with
  | none => simp
  | some k =>
    by_cases long : 250 < l.name.length + k.length
    · simp [long]
    · cases hlook : lookedUp k with
      | none => simp [long, hlook]
      | some pieces =>
        have unknown : (∃ k, keyCodes pieces = .error k) ↔ ∃ k ∈ pieces, getKeyCode k = none :=
          keyCodes_error_iff
        cases hcodes : keyCodes pieces with
        | error e => simpa [long, hlook, hcodes] using unknown
        | ok codes => simpa [long, hlook, hcodes] using unknown

theorem outcome_message_iff {ks codes : List Text} (h : l.Lists ks codes) :
    l.outcome = some [l.message codes] ↔ Fits ks := by
  have plain := known_plain h.known
  have noFormat : '%' ∉ l.keys := by
    rw [h.keys]
    exact plain_joined (by decide) fun k hk => (plain k hk).2.2.2.1
  have short : ¬ 250 < l.name.length + l.keys.length := by
    have hname := l.name_plain.2.2.2.1
    have hkeys := joined_length (c := ',') fun k hk => (plain k hk).2.2.2.2
    have := h.room
    rw [← h.keys] at hkeys
    simp only [maxIoevt] at this
    omega
  have look : lookedUp l.keys = some (seenKeys l.keys) := by
    have noFormat' : '%' ∉ l.keys.take (2 * maxIoevt - 1) :=
      fun c => noFormat (List.mem_of_mem_take c)
    rw [lookedUp, snprintf_plain noFormat, Option.bind_some, snprintf_plain noFormat',
      List.take_of_length_le (by simp only [List.length_take, maxIoevt, maxScContent]; omega)]
    rfl
  unfold outcome
  rw [format_plain noFormat]
  simp only [short, ↓reduceIte, look]
  rw [← seen_codes_iff h.known, ← h.keys]
  constructor
  · intro sent
    cases hcodes : keyCodes (seenKeys l.keys) with
    | error e => simp [hcodes] at sent
    | ok codes' =>
      have known := keyCodes_ok (fun k hk => words_filled hk) hcodes
      have same : l.message codes' = l.message codes := by simpa [hcodes] using sent
      rw [message_injective (codes_filled known) (codes_filled h.known) same]
  · intro hcodes
    rw [hcodes]

end KeyLine

/-- A line queues the message its keys ask for, and nothing for a bad list,
exactly when known keys fit the copy and bad ones are refused. -/
theorem ioevt_faithful_iff (host : Host) (callee : Text → World → Except Fault World) (l : KeyLine)
    (w : World) (testing : w.shared.thrCmdSendId ≠ 0)
    (queued : w.shared.sends host = true) :
    ((∀ ks codes, l.Lists ks codes → Queues host callee l w [l.message codes]) ∧
        (l.Bad → Queues host callee l w [])) ↔
      ((∀ ks codes, l.Lists ks codes → Fits ks) ∧ (l.Bad → l.Refused)) := by
  simp only [KeyLine.queues_iff host callee testing queued, KeyLine.outcome_empty_iff]
  constructor
  · rintro ⟨good, bad⟩
    exact ⟨fun ks codes h => (KeyLine.outcome_message_iff h).mp (good ks codes h), bad⟩
  · rintro ⟨good, bad⟩
    exact ⟨fun ks codes h => (KeyLine.outcome_message_iff h).mpr (good ks codes h), bad⟩

section Sample

/-- Test mode runs and nothing is queued. -/
def testing : World := ⟨.initial, { Shared.initial (fun _ => none) with thrCmdSendId := 1 }⟩

def willing : Host := .willing (fun _ => 5) (fun _ => none) fun _ => none

/-- Ten known keys in twenty characters, of which the `3` of `63` is lost. -/
def tenKeys : KeyLine where
  name := "ioevt".toList
  client := ⟨1, by decide⟩
  keys := "1,2,3,4,5,6,7,8,9,63".toList
  action := keyPress
  named := .inl rfl
  pressed := .inl rfl
  filled := by decide
  word := by decide

theorem ioevt_faithful_tenKeys :
    ((∀ ks codes, tenKeys.Lists ks codes →
          Queues willing (fun _ => .ok) tenKeys testing [tenKeys.message codes]) ∧
        (tenKeys.Bad → Queues willing (fun _ => .ok) tenKeys testing [])) ↔
      ((∀ ks codes, tenKeys.Lists ks codes → Fits ks) ∧ (tenKeys.Bad → tenKeys.Refused)) :=
  ioevt_faithful_iff willing (fun _ => .ok) tenKeys testing (by decide) rfl

def tenCodes (last : Text) : List Text :=
  ["49", "50", "51", "52", "53", "54", "55", "56", "57"].map String.toList ++ [last]

/-- Key `63`, which is `rl`, is queued as key `6`. -/
theorem tenKeys_other_key :
    ¬ ∀ ks codes, tenKeys.Lists ks codes →
      Queues willing (fun _ => .ok) tenKeys testing [tenKeys.message codes] := by
  intro faithful
  have known : ∀ p ∈ (["1", "2", "3", "4", "5", "6", "7", "8", "9", "63"].map String.toList).zip
      (tenCodes "63".toList), KeyHasCode p.1 p.2 := by
    decide +kernel
  have lists : tenKeys.Lists (["1", "2", "3", "4", "5", "6", "7", "8", "9", "63"].map String.toList)
      (tenCodes "63".toList) := by
    refine ⟨by decide, by decide, by decide, ?_⟩
    exact List.forall₂_iff_zip.mpr ⟨rfl, fun h => known _ h⟩
  have sent := faithful _ _ lists
  rw [KeyLine.queues_iff willing (fun _ => .ok) (by decide) rfl] at sent
  have other : tenKeys.outcome = some [tenKeys.message (tenCodes "54".toList)] := by
    decide +kernel
  have differ : tenKeys.message (tenCodes "54".toList) ≠ tenKeys.message (tenCodes "63".toList) := by
    decide
  rw [other] at sent
  exact differ (by simpa using sent)

end Sample

end AutoTest
