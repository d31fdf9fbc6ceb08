import AutoTest.KeyEvents

/-!
# The texts that messages carry

`call`, `syslog` and `hideFeature` send what they are given as one text. Each
reads as many arguments as it knows of and writes them with a format of its own
into a field of sixty bytes.

* `TextLine.text`: the text a line stands for.
* `TextLine.tokens`: what is read of a line.
* `text_complete_iff`: when the message carries the whole text.
-/

namespace AutoTest

open CString Strtok Program Cmd

/-- The commands whose messages carry a text. -/
inductive TextCommand where
  | call
  | syslog
  | hideFeature
  deriving DecidableEq, Repr

namespace TextCommand

def cmdNum : TextCommand → Nat
  | .call => 3
  | .syslog => 17
  | .hideFeature => 18

def func : TextCommand → Func
  | .call => .call
  | .syslog => .syslogConf
  | .hideFeature => .hideFeatureProc

/-- The arguments after the number that the handler writes out. -/
def taken : TextCommand → Nat
  | .call => 1
  | .syslog => 2
  | .hideFeature => 1

def suffix (cmd : TextCommand) (client : Client) (port : Int) : Text :=
  match cmd with
  | .syslog => syslogSuffix client port
  | _ => []

end TextCommand

/-- A line `<cmd> c a1 ... am`, of which `call` takes one argument only. -/
structure TextLine where
  cmd : TextCommand
  name : Text
  client : Client
  args : List Text
  named : name = (cmdEntry cmd.cmdNum).cmdName ∨ name = (cmdEntry cmd.cmdNum).nickName
  some_args : args ≠ []
  filled : ∀ a ∈ args, a ≠ []
  word : ∀ a ∈ args, ' ' ∉ a
  counted : cmd = .call → args.length = 1

namespace TextLine

variable (l : TextLine)

def line : Text := l.name ++ ' ' :: (toText l.client ++ ' ' :: joined ' ' l.args)

/-- All arguments in order, and what `syslog` adds. -/
def text (port : Int) : Text := joined ' ' l.args ++ l.cmd.suffix l.client port

def message (t : Text) : MsgQ := ⟨l.client, ⟨(cmdEntry l.cmd.cmdNum).cmdName, .shared t⟩⟩

/-- With its terminator the text fits the field. -/
def Fits (port : Int) : Prop := (l.text port).length < maxSharedLenth

instance (port : Int) : Decidable (l.Fits port) := inferInstanceAs (Decidable (_ < _))

/-- The line queues one message with the whole text, or nothing when it does not fit. -/
def Complete (host : Host) (callee : Text → World → Except Fault World) (w : World) : Prop :=
  ∃ w', perform host callee (cmdProc l.line) w = .ok w' ∧ w'.shared.queue = w.shared.queue ++
    if l.Fits w.shared.gSyslogPort then [l.message (l.text w.shared.gSyslogPort)] else []

/-! ## What is read of a line -/

theorem name_plain : l.name ≠ [] ∧ ' ' ∉ l.name ∧ '%' ∉ l.name ∧ l.name.length ≤ 11 ∧
    getCmdCode l.name = some l.cmd.cmdNum := by
  rcases l.named with h | h <;> rw [h] <;> cases l.cmd <;> decide

/-- The line up to its arguments. -/
def front : Text := l.name ++ ' ' :: (toText l.client ++ [' '])

theorem line_front : l.line = l.front ++ joined ' ' l.args := by simp [line, front]

theorem front_plain : '%' ∉ l.front := by
  have hname := l.name_plain.2.2.1
  have hclient := (client_text l.client).2.2.2
  simp [front, hname, hclient]

theorem front_length : l.front.length ≤ 14 := by
  have hname := l.name_plain.2.2.2.1
  have hclient := (client_text l.client).2.1
  simp only [front, List.length_append, List.length_cons, List.length_nil]
  omega

theorem words_front (rest : Text) :
    words cSpace (l.front ++ rest) = l.name :: toText l.client :: words cSpace rest := by
  have blank : ' ' ∈ cSpace := by decide
  have hclient := client_text l.client
  have filled : toText l.client ≠ [] := by
    intro empty
    simp [empty] at hclient
  have split : l.front ++ rest = l.name ++ ' ' :: (toText l.client ++ ' ' :: rest) := by simp [front]
  rw [split, words_cons (not_space l.name_plain.2.1) l.name_plain.1 blank,
    words_cons (not_space hclient.2.2.1) filled blank]

/-- What the buffer keeps of the arguments. -/
def room : Nat := maxScContent - 1 - l.front.length

theorem tokens {u : Text} (hu : format (joined ' ' l.args) = some u) : lineTokens l.line =
    some (l.name :: toText l.client :: (words cSpace (u.take l.room)).take (maxToken - 2)) := by
  have hfront := l.front_length
  have copied : (l.front ++ u).take (maxScContent - 1) = l.front ++ u.take l.room := by
    have hroom : maxScContent - 1 = l.front.length + l.room := by
      simp only [room, maxScContent]
      omega
    rw [hroom, List.take_length_add_append]
  rw [lineTokens, CString.snprintf, l.line_front, format_plain_append l.front_plain, hu]
  simp only [Option.map_some, copied, words_front]
  rfl

theorem tokens_undefined (hu : format (joined ' ' l.args) = none) : lineTokens l.line = none := by
  rw [lineTokens, CString.snprintf, l.line_front, format_plain_append l.front_plain, hu]
  rfl

end TextLine

/-- A directive does not reach over the end of a word. -/
theorem format_joined {ks : List Text} {u : Text} (h : format (joined ' ' ks) = some u) :
    ∃ fs, List.Forall₂ (fun k f => format k = some f) ks fs ∧ u = joined ' ' fs := by
  have blank : ' ' ≠ '%' := by decide
  induction ks generalizing u with
  | nil =>
    obtain rfl : [] = u := by simpa [joined, format] using h
    exact ⟨[], .nil, rfl⟩
  | cons k ks ih =>
    cases ks with
    | nil => exact ⟨[u], .cons h .nil, rfl⟩
    | cons next ks =>
      rw [joined, format_append_stop k blank, format_cons blank] at h
      obtain ⟨f, hf, hrest⟩ := Option.bind_eq_some_iff.mp h
      obtain ⟨v, hv, rfl⟩ := Option.map_eq_some_iff.mp hrest
      obtain ⟨copy, hcopy, rfl⟩ := Option.map_eq_some_iff.mp hv
      obtain ⟨fs, hfs, rfl⟩ := ih hcopy
      refine ⟨f :: fs, .cons hf hfs, ?_⟩
      cases hfs with
      | cons _ _ => rfl

/-- Formatting keeps the words of a line apart. -/
theorem formatted_words {ks fs : List Text} (h : List.Forall₂ (fun k f => format k = some f) ks fs)
    (filled : ∀ k ∈ ks, k ≠ []) (word : ∀ k ∈ ks, ' ' ∉ k) :
    (∀ f ∈ fs, f ≠ []) ∧ ∀ f ∈ fs, ' ' ∉ f := by
  induction h with
  | nil => exact ⟨by simp, by simp⟩
  | @cons k f ks fs hf _ ih =>
    obtain ⟨filled', word'⟩ :=
      ih (fun d hd => filled d (by simp [hd])) (fun d hd => word d (by simp [hd]))
    have head := format_filled hf (filled k (by simp))
    have blank : ' ' ∉ f := fun hc => word k (by simp) (format_mem hf hc)
    constructor
    · intro d hd
      rcases List.mem_cons.mp hd with rfl | later
      · exact head
      · exact filled' d later
    · intro d hd
      rcases List.mem_cons.mp hd with rfl | later
      · exact blank
      · exact word' d later

namespace TextLine

variable (l : TextLine)

section Formatted

variable {u : Text} {fs : List Text}
    (formatted : List.Forall₂ (fun k f => format k = some f) l.args fs)
  (hu : format (joined ' ' l.args) = some (joined ' ' fs))
include formatted

theorem first_formatted : ∃ f more, fs = f :: more ∧ f ≠ [] ∧ ' ' ∉ f := by
  obtain ⟨filled, word⟩ := formatted_words formatted l.filled l.word
  cases fs with
  | nil =>
    cases hargs : l.args with
    | nil => exact absurd hargs l.some_args
    | cons a args =>
      rw [hargs] at formatted
      cases formatted
  | cons f more => exact ⟨f, more, rfl, filled f (by simp), word f (by simp)⟩

include hu

/-- At least one argument is read, and `call` is not given more. -/
theorem tokens_found : ∃ first more,
    lineTokens l.line = some (l.name :: toText l.client :: first :: more) ∧
      (l.cmd = .call → more = []) := by
  obtain ⟨f, more, rfl, filled, word⟩ := l.first_formatted formatted
  have hroom : 0 < l.room := by
    have hfront := l.front_length
    simp only [room, maxScContent]
    omega
  rw [l.tokens hu]
  cases more with
  | nil =>
    have kept : f.take l.room ≠ [] := by simp [filled, Nat.ne_of_gt hroom]
    have one : words cSpace ((joined ' ' [f]).take l.room) = [f.take l.room] :=
      words_word (fun c hc => not_space word c (List.mem_of_mem_take hc)) kept
    exact ⟨f.take l.room, [], by rw [one]; rfl, fun _ => rfl⟩
  | cons next more =>
    cases f with
    | nil => exact absurd rfl filled
    | cons c f =>
      obtain ⟨n, hn⟩ : ∃ n, l.room = n + 1 := ⟨l.room - 1, by omega⟩
      have start : ∀ d ∈ [c], d ∉ cSpace := by
        intro d hd
        exact not_space word d (by simp [List.mem_singleton.mp hd])
      have read := words_head start (by simp) ((f ++ ' ' :: joined ' ' (next :: more)).take n)
      rw [List.singleton_append] at read
      rw [joined, List.cons_append, hn, List.take_succ_cons, read]
      refine ⟨_, _, rfl, ?_⟩
      intro call
      have many := formatted.length_eq
      rw [l.counted call] at many
      simp at many

/-- Of a text that fits, all words are read but for the limit on tokens. -/
theorem tokens_whole (fits : (joined ' ' fs).length ≤ l.room) :
    lineTokens l.line = some (l.name :: toText l.client :: fs.take (maxToken - 2)) := by
  obtain ⟨filled, word⟩ := formatted_words formatted l.filled l.word
  rw [l.tokens hu, List.take_of_length_le fits, show cSpace = [' '] from rfl,
    words_joined word filled]

end Formatted

end TextLine

/-! ## What the handlers write -/

/-- The text that a handler makes of the arguments it has read. -/
def TextCommand.shared (cmd : TextCommand) (client : Client) (port : Int) (first : Text)
    (more : List Text) : Option Text :=
  match cmd, more with
  | .call, _ => CString.snprintf maxSharedLenth first
  | .syslog, [second] =>
    some ((first ++ cSpace ++ second ++ syslogSuffix client port).take (maxSharedLenth - 1))
  | .syslog, _ => some ((first ++ syslogSuffix client port).take (maxSharedLenth - 1))
  | .hideFeature, _ => some (first.take (maxSharedLenth - 1))

section Handlers

variable {host : Host} {callee : Text → World → Except Fault World} {w : World} {l : TextLine}

/-- The message with this text is queued. -/
def Sent (l : TextLine) (s : Shared) (t : Option Text) (s' : Shared) : Prop :=
  ∃ text, t = some text ∧ s'.queue = s.queue ++ [l.message text]

theorem cmdCode_text (cmd : TextCommand) {name : Text}
    (named : name = (cmdEntry cmd.cmdNum).cmdName ∨ name = (cmdEntry cmd.cmdNum).nickName) :
    cmdCode cmd.cmdNum name = .pure (cmdEntry cmd.cmdNum).cmdName := by
  rcases named with rfl | rfl <;> cases cmd <;> rfl

/-- The tests that the three handlers begin with. -/
theorem accepted_leads {first : Text} {more : List Text} {old : Params} {k : Text → Cmd Unit}
    {bad : Fault → Prop} {post : Unit → World → Prop}
    (loaded : Params.Loaded (l.name :: toText l.client :: first :: more) old w.params)
    (testing : w.shared.thrCmdSendId ≠ 0)
    (next : (k (toText l.client)).Leads (interp host callee) bad post w) : (do
      let token ← param 1
      if atoi token > maxClient - 1 ∨ atoi token < minClient then validClients
      else if (← getSendThreadID) = 0 then say "please start test mode first!\n"
      else k token).Leads (interp host callee) bad post w := by
  have inside : ¬ (atoi (toText l.client) > maxClient - 1 ∨ atoi (toText l.client) < minClient) := by
    rw [(client_text l.client).1]
    simp only [maxClient, minClient]
    omega
  have number : w.params.param 1 = .ok (toText l.client) := loaded.own 1 (by simp)
  apply param_leads number
  rw [if_neg inside]
  apply Prog.Leads.now rfl
  rw [if_neg testing]
  exact next

/-- The end that the handlers have in common. -/
theorem sent_leads {text : Text} (queued : w.shared.sends host = true) (failure : String)
    {bad : Fault → Prop} {t : Option Text} (ht : t = some text) {clientNum : Int}
    (client : clientNum = l.client) :
    (msgsndOrSay ⟨clientNum, ⟨(cmdEntry l.cmd.cmdNum).cmdName, .shared text⟩⟩ failure).Leads
      (interp host callee) bad
      (fun _ w' => Sent l w.shared t w'.shared) w := by
  subst client
  apply Prog.Leads.now (r := (0 : Int))
  · simp only [interp, sharedStep, queued, ↓reduceIte]
    rfl
  · exact ⟨text, ht, rfl⟩

theorem call_leads (call : l.cmd = .call) {first : Text} {old : Params}
    (loaded : Params.Loaded [l.name, toText l.client, first] old w.params)
    (testing : w.shared.thrCmdSendId ≠ 0) (queued : w.shared.sends host = true) :
    (AutoTest.call 3).Leads (interp host callee)
      (fun _ => CString.snprintf maxSharedLenth first = none)
      (fun _ w' => Sent l w.shared (CString.snprintf maxSharedLenth first) w'.shared) w := by
  have zeroth : w.params.param 0 = .ok l.name := loaded.own 0 (by simp)
  have second : w.params.param 2 = .ok first := loaded.own 2 (by simp)
  have code : Cmd.snprintf maxCmdCode l.name = .pure (cmdEntry l.cmd.cmdNum).cmdName := by
    rcases l.named with h | h <;> rw [h, call] <;> rfl
  apply Prog.Leads.now rfl
  rw [if_neg (by simp [loaded.count])]
  apply accepted_leads loaded testing (k := fun token => do
    let code ← Cmd.snprintf maxCmdCode (← param 0)
    let shared ← Cmd.snprintf maxSharedLenth (← param 2)
    msgsndOrSay ⟨atoi token, ⟨code, .shared shared⟩⟩ "msg call send failed!")
  apply param_leads zeroth
  rw [code, Prog.pure_bind']
  apply param_leads second
  cases hcopy : CString.snprintf maxSharedLenth first with
  | none =>
    rw [Cmd.snprintf_none hcopy]
    exact (rfl : (none : Option Text) = none)
  | some text =>
    rw [Cmd.snprintf_some hcopy, Prog.pure_bind']
    exact sent_leads queued _ rfl (client_text l.client).1

theorem syslogConf_leads (syslog : l.cmd = .syslog) {first : Text} {more : List Text} {old : Params}
    {bad : Fault → Prop}
    (loaded : Params.Loaded (l.name :: toText l.client :: first :: more) old w.params)
    (testing : w.shared.thrCmdSendId ≠ 0) (queued : w.shared.sends host = true) :
    (syslogConf 17).Leads (interp host callee) bad (fun _ w' =>
      Sent l w.shared (TextCommand.syslog.shared l.client w.shared.gSyslogPort first more) w'.shared)
        w := by
  have zeroth : w.params.param 0 = .ok l.name := loaded.own 0 (by simp)
  have number : w.params.param 1 = .ok (toText l.client) := loaded.own 1 (by simp)
  have second : w.params.param 2 = .ok first := loaded.own 2 (by simp)
  have count : w.params.gParamNum = more.length + 2 := by
    rw [loaded.count]
    simp only [List.length_cons]
    omega
  have client := (client_text l.client).1
  have code : cmdCode 17 l.name = .pure (cmdEntry l.cmd.cmdNum).cmdName := by
    have named := l.named
    rw [syslog] at named ⊢
    exact cmdCode_text .syslog named
  apply Prog.Leads.now rfl
  rw [if_neg (by omega)]
  apply accepted_leads loaded testing (k := fun _ => do
    let code ← cmdCode 17 (← param 0)
    let clientNum := atoi (← param 1)
    if w.params.gParamNum = 3 then
      let first ← param 2
      let second ← param 3
      let port ← getSysLogPortNum
      let shared := (first ++ cSpace ++ second ++ syslogSuffix clientNum port).take
        (maxSharedLenth - 1)
      msgsndOrSay ⟨clientNum, ⟨code, .shared shared⟩⟩ "msg syslog send failed!"
    else
      let first ← param 2
      let port ← getSysLogPortNum
      let shared := (first ++ syslogSuffix clientNum port).take (maxSharedLenth - 1)
      msgsndOrSay ⟨clientNum, ⟨code, .shared shared⟩⟩ "msg syslog send failed!")
  apply param_leads zeroth
  rw [code, Prog.pure_bind']
  apply param_leads number
  apply Prog.Leads.ite
  · intro two
    obtain ⟨other, rfl⟩ := List.length_eq_one_iff.mp (show more.length = 1 by omega)
    have third : w.params.param 3 = .ok other := loaded.own 3 (by simp)
    apply param_leads second
    apply param_leads third
    apply Prog.Leads.now rfl
    exact sent_leads queued _ (by rw [client]; rfl) client
  · intro many
    have written : TextCommand.syslog.shared l.client w.shared.gSyslogPort first more =
        some ((first ++ syslogSuffix l.client w.shared.gSyslogPort).take (maxSharedLenth - 1)) := by
      unfold TextCommand.shared
      split <;> simp_all
    apply param_leads second
    apply Prog.Leads.now rfl
    exact sent_leads queued _ (by rw [written, client]) client

theorem hideFeatureProc_leads (hideFeature : l.cmd = .hideFeature) {first : Text}
    {more : List Text} {old : Params} {bad : Fault → Prop}
    (loaded : Params.Loaded (l.name :: toText l.client :: first :: more) old w.params)
    (testing : w.shared.thrCmdSendId ≠ 0) (queued : w.shared.sends host = true) :
    (hideFeatureProc 18).Leads (interp host callee) bad (fun _ w' =>
      Sent l w.shared (TextCommand.hideFeature.shared l.client w.shared.gSyslogPort first more)
        w'.shared) w := by
  have zeroth : w.params.param 0 = .ok l.name := loaded.own 0 (by simp)
  have number : w.params.param 1 = .ok (toText l.client) := loaded.own 1 (by simp)
  have second : w.params.param 2 = .ok first := loaded.own 2 (by simp)
  have count : w.params.gParamNum = more.length + 2 := by
    rw [loaded.count]
    simp only [List.length_cons]
    omega
  have code : cmdCode 18 l.name = .pure (cmdEntry l.cmd.cmdNum).cmdName := by
    have named := l.named
    rw [hideFeature] at named ⊢
    exact cmdCode_text .hideFeature named
  apply Prog.Leads.now rfl
  rw [if_neg (by omega)]
  apply accepted_leads loaded testing (k := fun _ => do
    let code ← cmdCode 18 (← param 0)
    let clientNum := atoi (← param 1)
    let shared := (← param 2).take (maxSharedLenth - 1)
    msgsndOrSay ⟨clientNum, ⟨code, .shared shared⟩⟩ "msg syslog send failed!")
  apply param_leads zeroth
  rw [code, Prog.pure_bind']
  apply param_leads number
  apply param_leads second
  exact sent_leads queued _ rfl (client_text l.client).1

/-- The line is processed to its end, unless formatting it fails. -/
theorem line_leads {first : Text} {more : List Text}
    (tokens : lineTokens l.line = some (l.name :: toText l.client :: first :: more))
    (one : l.cmd = .call → more = []) (testing : w.shared.thrCmdSendId ≠ 0)
    (queued : w.shared.sends host = true) :
    (cmdProc l.line).Leads (interp host callee)
      (fun _ => l.cmd.shared l.client w.shared.gSyslogPort first more = none)
      (fun _ w' => Sent l w.shared (l.cmd.shared l.client w.shared.gSyslogPort first more) w'.shared)
        w := by
  have code := l.name_plain.2.2.2.2
  cases hcmd : l.cmd with
  | call =>
    rw [hcmd] at code
    obtain rfl := one hcmd
    exact CmdLine.leads (f := .call) ⟨l.line, l.name, _, 3, tokens, code, rfl⟩ fun p loaded =>
      call_leads (w := ⟨p, w.shared⟩) hcmd loaded testing queued
  | syslog =>
    rw [hcmd] at code
    exact CmdLine.leads (f := .syslogConf) ⟨l.line, l.name, _, 17, tokens, code, rfl⟩ fun p loaded =>
      syslogConf_leads (w := ⟨p, w.shared⟩) hcmd loaded testing queued
  | hideFeature =>
    rw [hcmd] at code
    exact CmdLine.leads (f := .hideFeatureProc) ⟨l.line, l.name, _, 18, tokens, code,
      rfl⟩ fun p loaded =>
      hideFeatureProc_leads (w := ⟨p, w.shared⟩) hcmd loaded testing queued

end Handlers

/-! ## Whole texts -/

section Whole

variable {cmd : TextCommand} {client : Client} {port : Int} {args fs : List Text}

theorem plain_of_length {a f : Text} (h : format a = some f)
    (kept : a.length ≤ f.length) : '%' ∉ a := by
  intro percent
  have := format_shorter h percent
  omega

theorem same_of_plain {a f : Text} (h : format a = some f) (plain : '%' ∉ a) : f = a :=
  Option.some.inj (h.symm.trans (format_plain plain))

theorem take_fits {t : Text} (fits : t.length < maxSharedLenth) : t.take (maxSharedLenth - 1) = t :=
  List.take_of_length_le (by omega)

theorem shared_one {a f : Text} (h : format a = some f)
    (fits : (a ++ cmd.suffix client port).length < maxSharedLenth) :
    cmd.shared client port f [] = some (a ++ cmd.suffix client port) ↔ '%' ∉ a := by
  constructor
  · intro written
    have length : (a ++ cmd.suffix client port).length ≤ (f ++ cmd.suffix client port).length := by
      cases cmd with
      | call => simpa [TextCommand.suffix] using snprintf_length_le written
      | syslog =>
        rw [← Option.some.inj written]
        exact List.length_take_le' _ _
      | hideFeature =>
        rw [← Option.some.inj written]
        simp only [TextCommand.suffix, List.append_nil]
        exact List.length_take_le' _ _
    apply plain_of_length h
    simpa using length
  · intro plain
    obtain rfl := same_of_plain h plain
    cases cmd with
    | call =>
      simp only [TextCommand.suffix, List.append_nil] at fits ⊢
      rw [TextCommand.shared, snprintf_plain plain, take_fits fits]
    | syslog => exact congrArg some (take_fits fits)
    | hideFeature =>
      simp only [TextCommand.suffix, List.append_nil] at fits ⊢
      exact congrArg some (take_fits fits)

theorem syslog_two {a b f g : Text} (ha : format a = some f) (hb : format b = some g)
    (fits : (joined ' ' [a, b] ++ syslogSuffix client port).length < maxSharedLenth) :
    TextCommand.syslog.shared client port f [g] =
      some (joined ' ' [a, b] ++ syslogSuffix client port) ↔
      '%' ∉ a ∧ '%' ∉ b := by
  have split (x y : Text) : x ++ cSpace ++ y ++ syslogSuffix client port =
      joined ' ' [x, y] ++ syslogSuffix client port := by simp [joined, cSpace]
  have shorter := format_length_le ha
  have shorter' := format_length_le hb
  rw [TextCommand.shared, split]
  constructor
  · intro written
    have length := List.length_take_le' (maxSharedLenth - 1)
      (joined ' ' [f, g] ++ syslogSuffix client port)
    rw [Option.some.inj written] at length
    simp only [joined, List.length_append, List.length_cons] at length
    exact ⟨plain_of_length ha (by omega), plain_of_length hb (by omega)⟩
  · rintro ⟨plain, plain'⟩
    obtain rfl := same_of_plain ha plain
    obtain rfl := same_of_plain hb plain'
    rw [take_fits fits]

/-- An argument that is not written is missing from the text. -/
theorem shared_short {a b f : Text} {rest more : List Text} (h : format a = some f)
    (lost : cmd = .hideFeature ∨ (cmd = .syslog ∧ more.length ≠ 1)) :
    cmd.shared client port f more ≠ some (joined ' ' (a :: b :: rest) ++ cmd.suffix client port) := by
  have shorter := format_length_le h
  intro written
  have length : (joined ' ' (a :: b :: rest) ++ cmd.suffix client port).length ≤
      (f ++ cmd.suffix client port).length := by
    rcases lost with rfl | ⟨rfl, many⟩
    · rw [← Option.some.inj written]
      simp only [TextCommand.suffix, List.append_nil]
      exact List.length_take_le' _ _
    · have once : TextCommand.syslog.shared client port f more =
          some ((f ++ syslogSuffix client port).take (maxSharedLenth - 1)) := by
        unfold TextCommand.shared
        split <;> simp_all
      rw [once] at written
      rw [← Option.some.inj written]
      exact List.length_take_le' _ _
  simp only [joined, List.length_append, List.length_cons] at length
  omega

/-- What is written is the whole text exactly when all arguments are taken, and
none is formatted to something else. -/
theorem shared_whole_iff
    (formatted : List.Forall₂ (fun k f => format k = some f) args fs) {first : Text}
    {more : List Text} (read : fs.take (maxToken - 2) = first :: more)
    (counted : cmd = .call → args.length = 1)
    (fits : (joined ' ' args ++ cmd.suffix client port).length < maxSharedLenth) :
    cmd.shared client port first more = some (joined ' ' args ++ cmd.suffix client port) ↔
      (∀ a ∈ args, '%' ∉ a) ∧ args.length ≤ cmd.taken := by
  cases formatted with
  | nil => cases read
  | @cons a f args fs ha rest =>
    cases rest with
    | nil =>
      obtain ⟨rfl, rfl⟩ : f = first ∧ [] = more := by simpa [maxToken] using read
      have takes : 1 ≤ cmd.taken := by cases cmd <;> decide
      simpa [joined, takes] using shared_one ha fits
    | @cons b g args fs hb rest =>
      obtain ⟨rfl, hmore⟩ : f = first ∧ (g :: fs).take (maxToken - 3) = more := by
        simpa [maxToken] using read
      cases hcmd : cmd with
      | call =>
        have one := counted hcmd
        simp at one
      | hideFeature =>
        apply iff_of_false
        · exact shared_short ha (.inl rfl)
        · rintro ⟨-, few⟩
          simp [TextCommand.taken] at few
      | syslog =>
        rw [hcmd] at fits
        cases rest with
        | nil =>
          obtain rfl : [g] = more := by simpa [maxToken] using hmore
          simpa [TextCommand.taken, TextCommand.suffix] using syslog_two ha hb fits
        | cons hc rest =>
          apply iff_of_false
          · apply shared_short ha (.inr ⟨rfl, _⟩)
            rw [← hmore]
            simp only [maxToken, List.take_succ_cons, List.length_cons]
            omega
          · rintro ⟨-, few⟩
            simp [TextCommand.taken] at few

end Whole

section Complete

variable {host : Host} {callee : Text → World → Except Fault World} {w : World} {l : TextLine}

/-- Where the line is read as `first :: more`, the text written decides. -/
theorem complete_iff_written {first : Text} {more : List Text}
    (tokens : lineTokens l.line = some (l.name :: toText l.client :: first :: more))
    (one : l.cmd = .call → more = []) (testing : w.shared.thrCmdSendId ≠ 0)
    (queued : w.shared.sends host = true) : l.Complete host callee w ↔ l.Fits w.shared.gSyslogPort ∧
      l.cmd.shared l.client w.shared.gSyslogPort first more = some (l.text w.shared.gSyslogPort) := by
  have leads : (cmdProc l.line).Leads (interp host callee) _ _ w :=
    line_leads tokens one testing queued
  constructor
  · rintro ⟨w', hrun, queue⟩
    unfold perform at hrun
    split at hrun
    · rename_i _ v hline
      cases hrun
      obtain ⟨text, written, sent⟩ := leads.ok hline
      have same := List.append_cancel_left (sent.symm.trans queue)
      split at same
      · rename_i fits
        simp only [TextLine.message, List.cons.injEq, MsgQ.mk.injEq, CmdObj.mk.injEq,
          CmdParam.shared.injEq, true_and, and_true] at same
        exact ⟨fits, written.trans (congrArg some same)⟩
      · cases same
    · cases hrun
  · rintro ⟨fits, written⟩
    cases hline : (cmdProc l.line).run (interp host callee) w with
    | error e =>
      have undefined := leads.error hline
      rw [undefined] at written
      cases written
    | ok r =>
      obtain ⟨text, same, sent⟩ := leads.ok hline
      obtain rfl := Option.some.inj (same.symm.trans written)
      refine ⟨r.2, by simp only [perform, hline], ?_⟩
      rw [sent, if_pos fits]

/-- The whole text is queued, or none of it, exactly when it fits, has no `%`
and has no more arguments than the handler writes out. -/
theorem text_complete_iff (host : Host) (callee : Text → World → Except Fault World)
    (l : TextLine) (w : World)
    (testing : w.shared.thrCmdSendId ≠ 0) (queued : w.shared.sends host = true) :
    l.Complete host callee w ↔
      l.Fits w.shared.gSyslogPort ∧ (∀ a ∈ l.args, '%' ∉ a) ∧ l.args.length ≤ l.cmd.taken := by
  cases hu : format (joined ' ' l.args) with
  | none =>
    apply iff_of_false
    · rintro ⟨w', hrun, -⟩
      simp [perform, cmdProc_undefined (l.tokens_undefined hu)] at hrun
    · rintro ⟨-, plain, -⟩
      have copied := format_plain (plain_joined (c := ' ') (d := '%') (by decide) plain)
      rw [copied] at hu
      cases hu
  | some u =>
    obtain ⟨fs, formatted, rfl⟩ := format_joined hu
    obtain ⟨first, more, tokens, one⟩ := l.tokens_found formatted hu
    rw [complete_iff_written tokens one testing queued]
    apply and_congr_right
    intro fits
    have short : (joined ' ' fs).length ≤ l.room := by
      have copied := format_length_le hu
      have front := l.front_length
      simp only [TextLine.Fits, TextLine.text, TextLine.room, List.length_append, maxSharedLenth,
        maxScContent] at fits ⊢
      omega
    have whole := (l.tokens_whole formatted hu short).symm.trans tokens
    exact shared_whole_iff formatted (by simpa using whole) l.counted fits

end Complete

def callLine : TextLine where
  cmd := .call
  name := "call".toList
  client := tenKeys.client
  args := ["1000".toList]
  named := .inl rfl
  some_args := List.cons_ne_nil _ _
  filled := by simp
  word := by simp
  counted := fun _ => rfl

theorem text_complete_callLine : callLine.Complete willing (fun _ => .ok) testing :=
  (text_complete_iff willing (fun _ => .ok) callLine testing (by decide) rfl).mpr
    ⟨by decide +kernel, by decide, by decide⟩

def threeArgs : TextLine where
  cmd := .syslog
  name := "sl".toList
  client := tenKeys.client
  args := ["a".toList, "b".toList, "c".toList]
  named := .inr rfl
  some_args := List.cons_ne_nil _ _
  filled := by simp
  word := by simp
  counted := fun h => absurd h (by decide)

/-- Of three arguments `syslog` sends the first. -/
theorem threeArgs_incomplete : ¬ threeArgs.Complete willing (fun _ => .ok) testing := by
  have tokens : lineTokens threeArgs.line = some (threeArgs.name :: toText threeArgs.client ::
      "a".toList :: ["b".toList, "c".toList]) := by
    decide +kernel
  rw [complete_iff_written tokens (fun h => absurd h (by decide)) (by decide) rfl]
  rintro ⟨-, written⟩
  exact absurd written (by decide +kernel)

end AutoTest
