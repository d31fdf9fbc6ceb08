import Mathlib.Data.Set.Defs
import AutoTest.Registry

/-!
# Which client a log is about

* `namedClient` and `Reports` say what a text names and reports, from its
  characters alone.
* `Acts` is what one text should do to the registry and the counters.
* `Attributable` is the kind of text for which `syslogProcess` does so. A text
  without `client` acts on client 2, client 0 is passed over, and a field of
  more than two characters overruns its buffer.
* `logs_attributed_iff`: the runs over a set of texts are all as they should be
  exactly when every text of the set is attributable.
-/

namespace AutoTest

open CString Strtok Program

/-- The decimal number between the separator after the first `client` and a space. -/
def namedClient (log : Text) : Option Nat :=
  match clientField log with
  | .ok field => if digits field then some (decimal field) else none
  | .error _ => none

theorem namedClient_iff (log : Text) (n : Nat) : namedClient log = some n ↔
    ∃ sep number rest, strstr strClient log = some (strClient ++ sep :: (number ++ ' ' :: rest)) ∧
      digits number ∧ decimal number = n := by
  unfold namedClient clientField
  cases found : strstr strClient log with
  | none => simp
  | some p =>
    obtain ⟨q, rfl⟩ := strstr_prefix found
    have hdrop : (strClient ++ q).drop (strClient.length + 1) = q.drop 1 := by
      rw [List.drop_append, Nat.add_sub_cancel_left]
      simp
    simp only [hdrop]
    constructor
    · intro h
      by_cases closed : ' ' ∈ q.drop 1
      · by_cases number : digits ((q.drop 1).takeWhile (· ≠ ' '))
        · simp only [closed, number, ↓reduceIte, Option.some.injEq] at h
          obtain ⟨rest, hrest⟩ := split_before closed
          cases q with
          | nil => simp at closed
          | cons sep q => exact ⟨sep, _, rest, by rw [← hrest]; rfl, number, h⟩
        · simp only [closed, number, ↓reduceIte, Bool.false_eq_true, reduceCtorEq] at h
      · simp only [closed, ↓reduceIte, reduceCtorEq] at h
    · rintro ⟨sep, number, rest, hp, hdigits, hn⟩
      obtain rfl : q = sep :: (number ++ ' ' :: rest) := by simpa using hp
      have noSpace : ' ' ∉ number := by
        intro hs
        simp only [digits, Bool.and_eq_true] at hdigits
        exact absurd (List.all_eq_true.mp hdigits.2 _ hs) (by decide)
      have closed : ' ' ∈ (sep :: (number ++ ' ' :: rest)).drop 1 := by simp
      have hfield : ((sep :: (number ++ ' ' :: rest)).drop 1).takeWhile (· ≠ ' ') = number :=
        takeWhile_before noSpace rest
      simp only [closed, hfield, hdigits, hn, ↓reduceIte]

/-- The event of a text, the first of the three when it has several. -/
def Reports : LogStr → Text → Prop
  | .suspend, log => gLogStrLib .suspend <:+: log
  | .talkBuild, log => gLogStrLib .talkBuild <:+: log ∧ ¬ gLogStrLib .suspend <:+: log
  | .talkConference, log => gLogStrLib .talkConference <:+: log ∧
      ¬ gLogStrLib .talkBuild <:+: log ∧ ¬ gLogStrLib .suspend <:+: log

theorem getLogMsgIssueId_iff (log : Text) (issueId : LogStr) :
    getLogMsgIssueId log = some issueId ↔ Reports issueId log := by
  by_cases suspend : gLogStrLib .suspend <:+: log <;>
    by_cases build : gLogStrLib .talkBuild <:+: log <;>
      by_cases conference : gLogStrLib .talkConference <:+: log <;>
        cases issueId <;>
          simp [getLogMsgIssueId, Reports, strstr_isSome, suspend, build, conference]

instance (issueId : LogStr) (log : Text) : Decidable (Reports issueId log) :=
  decidable_of_iff _ (getLogMsgIssueId_iff log issueId)

/-! ## What a text should do -/

structure Unmoved (n : Client) (s s' : Shared) : Prop where
  entry : Net.SameEntry n s.net s'.net
  calls : ∀ type, s'.gSuccessCall type n = s.gSuccessCall type n

def callEvent : Nat → LogStr
  | 0 => .talkBuild
  | _ => .talkConference

structure ActsOn (log : Text) (n : Client) (s s' : Shared) : Prop where
  suspended : Reports .suspend log →
    s'.net.gClientFlag n = unused ∧ cstring (s'.net.gClientIpAddr n) = []
  called : ¬ Reports .suspend log → Net.SameEntry n s.net s'.net
  calls : ∀ type < maxCallType, s'.gSuccessCall type n =
    if Reports (callEvent type) log then min (s.gSuccessCall type n + 1) intMax
    else s.gSuccessCall type n

/-- The client named is acted on, and no other client is. -/
structure Acts (log : Text) (s s' : Shared) : Prop where
  others : ∀ n : Client, namedClient log ≠ some n.val → Unmoved n s s'
  named : ∀ n : Client, namedClient log = some n.val → ActsOn log n s s'

/-- The counters are `int` values that were never negative. -/
def Counting (s : Shared) : Prop :=
  ∀ type < maxCallType, ∀ n, 0 ≤ s.gSuccessCall type n ∧ s.gSuccessCall type n ≤ intMax

def logCount (type : Nat) (n : Client) (logs : List Text) : Nat :=
  logs.countP fun log => namedClient log = some n.val ∧ Reports (callEvent type) log

/-- The texts that are processed as they should be, with every registry. -/
def Attributable (log : Text) : Prop :=
  ∀ issueId, Reports issueId log → ∃ field, clientField log = .ok field ∧
    field.length ≤ 2 ∧ (digits field → decimal field ≠ 0) ∧
    (¬ digits field → ¬ (1 ≤ atoi field ∧ atoi field ≤ 9))

/-! ## One text -/

theorem applyEvent_other {m n : Client} (other : m ≠ n) (issueId : LogStr) (s : Shared) :
    Unmoved m s (s.applyEvent issueId n) := by
  cases issueId with
  | suspend => exact ⟨Net.remove_other other s.net, fun _ => rfl⟩
  | talkBuild =>
    refine ⟨.refl m s.net, ?_⟩
    intro type
    by_cases zero : type = 0 <;> simp [Shared.applyEvent, Shared.countedCall, zero, other]
  | talkConference =>
    refine ⟨.refl m s.net, ?_⟩
    intro type
    by_cases one : type = 1 <;> simp [Shared.applyEvent, Shared.countedCall, one, other]

theorem applyEvent_self {log : Text} {issueId : LogStr} (reports : Reports issueId log)
    (n : Client) {s : Shared} (counting : Counting s) : ActsOn log n s (s.applyEvent issueId n) := by
  have only (i : LogStr) : Reports i log ↔ i = issueId := by
    rw [← getLogMsgIssueId_iff, (getLogMsgIssueId_iff log issueId).mpr reports]
    exact ⟨fun h => (Option.some.inj h).symm, fun h => congrArg some h.symm⟩
  have next (type : Nat) (known : type < maxCallType) :=
    int32_next (counting type known n).1 (counting type known n).2
  have types {type : Nat} (known : type < maxCallType) : type = 0 ∨ type = 1 := by
    simp only [maxCallType] at known
    omega
  cases issueId with
  | suspend =>
    obtain ⟨flag, text, -⟩ := Net.remove_self n s.net
    refine ⟨fun _ => ⟨flag, text⟩, fun no => absurd reports no, ?_⟩
    intro type known
    rcases types known with rfl | rfl <;> simp [only, callEvent, Shared.applyEvent]
  | talkBuild =>
    refine ⟨fun h => by simp [only] at h, fun _ => .refl n s.net, ?_⟩
    intro type known
    rcases types known with rfl | rfl
    · simp only [Shared.applyEvent, Shared.countedCall, Function.update_self, next _ known, only,
        callEvent, ↓reduceIte]
    · simp [only, callEvent, Shared.applyEvent, Shared.countedCall]
  | talkConference =>
    refine ⟨fun h => by simp [only] at h, fun _ => .refl n s.net, ?_⟩
    intro type known
    rcases types known with rfl | rfl
    · simp [only, callEvent, Shared.applyEvent, Shared.countedCall]
    · simp only [Shared.applyEvent, Shared.countedCall, Function.update_self, next _ known, only,
        callEvent, ↓reduceIte]

theorem clientIndex_filter {clientNum : Int} {n : Client} :
    (clientIndex clientNum).filter (0 < ·.val) = some n ↔ clientNum = n ∧ 0 < n.val := by
  constructor
  · intro h
    obtain ⟨hindex, hn⟩ := Option.filter_eq_some_iff.mp h
    exact ⟨clientIndex_some hindex, by simpa using hn⟩
  · rintro ⟨rfl, hn⟩
    rw [clientIndex_cast, Option.filter_eq_some_iff]
    exact ⟨rfl, by simpa using hn⟩

/-- An attributable text with an event acts on the client it names, if it names
one from 1 to 9, and on nobody else. -/
theorem Attributable.logged {log : Text} (h : Attributable log) {issueId : LogStr}
    (reports : Reports issueId log) : ∃ client, loggedClient log = .ok client ∧
      ∀ n : Client, client = some n ↔ namedClient log = some n.val := by
  obtain ⟨field, hfield, short, number, other⟩ := h issueId reports
  have found : strstr strClient log ≠ none := by
    intro none
    simp [clientField, none] at hfield
  have scanned : getLogClientNum log = .ok (atoi field) := by
    simp [getLogClientNum, found, hfield, short]
  refine ⟨(clientIndex (atoi field)).filter (0 < ·.val), by simp [loggedClient, scanned], ?_⟩
  intro n
  by_cases hd : digits field
  · have small : decimal field < 100 := by
      have all : field.all Char.isDigit := by simp [digits] at hd; simpa using hd.2
      have := decimal_lt all
      have : (10 : Nat) ^ field.length ≤ 10 ^ 2 := Nat.pow_le_pow_right (by omega) short
      omega
    have hatoi : atoi field = decimal field := atoi_digits hd (by simp only [intMax]; omega)
    have positive := number hd
    simp only [clientIndex_filter, namedClient, hfield, hd, ↓reduceIte, hatoi, Option.some.injEq]
    omega
  · have outside := other hd
    simp only [clientIndex_filter, namedClient, hfield, hd, Bool.false_eq_true, ↓reduceIte,
      reduceCtorEq, iff_false, not_and]
    omega

/-! ## Runs -/

variable (host : Host) (callee : Text → World → Except Fault World)

def logStep (log : Text) : World → Except Fault World :=
  perform host callee (syslogProcess log)

theorem Attributable.step {log : Text} (h : Attributable log) {w : World}
    (counting : Counting w.shared) :
    ∃ w', logStep host callee log w = .ok w' ∧ Acts log w.shared w'.shared := by
  rw [logStep, perform_syslogProcess, logEffect]
  cases event : getLogMsgIssueId log with
  | none =>
    have silent (i : LogStr) : ¬ Reports i log := by simp [← getLogMsgIssueId_iff, event]
    refine ⟨w, rfl, fun n _ => ⟨.refl n _, fun _ => rfl⟩, ?_⟩
    intro n _
    exact ⟨fun h => absurd h (silent _), fun _ => .refl n _, fun type _ => by simp [silent]⟩
  | some issueId =>
    have reports := (getLogMsgIssueId_iff log issueId).mp event
    obtain ⟨client, hclient, names⟩ := h.logged reports
    simp only [hclient]
    cases client with
    | none =>
      refine ⟨w, rfl, fun n _ => ⟨.refl n _, fun _ => rfl⟩, ?_⟩
      intro n named
      simp [← names] at named
    | some m =>
      refine ⟨_, rfl, fun n other => ?_, fun n named => ?_⟩
      · have apart : n ≠ m := by
          rintro rfl
          exact other ((names n).mp rfl)
        exact applyEvent_other apart issueId w.shared
      · obtain rfl : m = n := Option.some.inj ((names n).mpr named)
        exact applyEvent_self reports m counting

theorem Acts.call {log : Text} {s s' : Shared} (acts : Acts log s s') {type : Nat}
    (known : type < maxCallType) (n : Client) : s'.gSuccessCall type n =
      if namedClient log = some n.val ∧ Reports (callEvent type) log
      then min (s.gSuccessCall type n + 1) intMax else s.gSuccessCall type n := by
  by_cases named : namedClient log = some n.val
  · simp [(acts.named n named).calls type known, named]
  · simp [(acts.others n named).calls type, named]

theorem Acts.counting {log : Text} {s s' : Shared} (acts : Acts log s s') (counting : Counting s) :
    Counting s' := by
  intro type known n
  have := counting type known n
  rw [acts.call known n]
  simp only [intMax] at *
  split <;> omega

/-- Every text of a run acts as it should, and in the end every counter has
grown by the number of texts that name its client and its event. -/
structure Lawful (logs : List Text) (w : World) : Prop where
  acts : Throughout (logStep host callee) (fun log w w' => Acts log w.shared w'.shared) logs w
  counts : ∃ w', runAll (logStep host callee) logs w = .ok w' ∧ ∀ type < maxCallType, ∀ n,
    w'.shared.gSuccessCall type n =
      min (w.shared.gSuccessCall type n + logCount type n logs) intMax

theorem lawful_of_acts {logs : List Text} {w : World} (counting : Counting w.shared)
    (acts : Throughout (logStep host callee) (fun log w w' => Acts log w.shared w'.shared) logs w) :
    Lawful host callee logs w := by
  refine ⟨acts, ?_⟩
  induction logs generalizing w with
  | nil =>
    refine ⟨w, rfl, ?_⟩
    intro type known n
    have := (counting type known n).2
    simp only [logCount, List.countP_nil]
    omega
  | cons log logs ih =>
    obtain ⟨mid, hstep, act, rest⟩ := acts
    obtain ⟨w', hrun, hcount⟩ := ih (act.counting counting) rest
    refine ⟨w', by simpa [runAll, hstep] using hrun, ?_⟩
    intro type known n
    have one := act.call known n
    have more := hcount type known n
    have range := counting type known n
    simp only [logCount, List.countP_cons] at more ⊢
    by_cases counted : namedClient log = some n.val ∧ Reports (callEvent type) log
    · simp only [counted, and_self, ↓reduceIte, decide_true] at one ⊢
      omega
    · simp only [counted, ↓reduceIte, decide_false, Bool.false_eq_true] at one ⊢
      omega

/-- Every client is USED and no call is counted. -/
def busy : Shared :=
  { Shared.initial fun _ => none with
    net := { Net.empty fun _ => none with gClientFlag := fun _ => used } }

theorem busy_counting : Counting busy := by
  intro type _ n
  simp [busy, Shared.initial, intMax]

/-- Where all clients are USED, every event moves the client it acts on. -/
theorem busy_moved (issueId : LogStr) (n : Client) :
    ¬ Unmoved n busy (busy.applyEvent issueId n) := by
  intro same
  cases issueId with
  | suspend =>
    have flag := same.entry.flag
    rw [Shared.applyEvent, (Net.remove_self n busy.net).1] at flag
    simp [busy, used, unused] at flag
  | talkBuild =>
    have calls := same.calls 0
    simp [Shared.applyEvent, Shared.countedCall, busy, Shared.initial, int32] at calls
  | talkConference =>
    have calls := same.calls 1
    simp [Shared.applyEvent, Shared.countedCall, busy, Shared.initial, int32] at calls

/-- An event whose client is not acted on goes missing there. -/
theorem busy_missed {log : Text} {issueId : LogStr} (reports : Reports issueId log) (n : Client) :
    ¬ ActsOn log n busy busy := by
  intro acts
  cases issueId with
  | suspend =>
    have flag := (acts.suspended reports).1
    simp [busy, used, unused] at flag
  | talkBuild =>
    have calls := acts.calls 0 (by decide)
    simp only [callEvent, reports, ↓reduceIte] at calls
    have counted : (0 : Int) = min (0 + 1) intMax := calls
    exact absurd counted (by decide)
  | talkConference =>
    have calls := acts.calls 1 (by decide)
    simp only [callEvent, reports, ↓reduceIte] at calls
    have counted : (0 : Int) = min (0 + 1) intMax := calls
    exact absurd counted (by decide)

theorem loggedClient_ok {log : Text} {client : Option Client} (h : loggedClient log = .ok client) :
    client = some 2 ∧ namedClient log = none ∨
    ∃ field, clientField log = .ok field ∧ field.length ≤ 2 ∧
      client = (clientIndex (atoi field)).filter (0 < ·.val) := by
  by_cases absent : strstr strClient log = none
  · refine .inl ⟨?_, by simp [namedClient, clientField, absent]⟩
    simp only [loggedClient, getLogClientNum, absent, ↓reduceIte] at h
    have two : (clientIndex AtStat.error.toInt).filter (0 < ·.val) = some 2 := by decide
    rw [← Except.ok.inj h, two]
  · cases hfield : clientField log with
    | error f => simp [loggedClient, getLogClientNum, absent, hfield] at h
    | ok field =>
      by_cases short : field.length ≤ 2
      · refine .inr ⟨field, rfl, short, ?_⟩
        simp only [loggedClient, getLogClientNum, absent, hfield, short, ↓reduceIte] at h
        exact (Except.ok.inj h).symm
      · simp [loggedClient, getLogClientNum, absent, hfield, short] at h

theorem attributable_of_acts {log : Text}
    (acts : Throughout (logStep host callee) (fun log w w' => Acts log w.shared w'.shared) [log]
      ⟨.initial, busy⟩) : Attributable log := by
  intro issueId reports
  obtain ⟨w', hstep, acts, -⟩ := acts
  rw [logStep, perform_syslogProcess, logEffect, (getLogMsgIssueId_iff log issueId).mpr reports]
    at hstep
  cases hclient : loggedClient log with
  | error f => simp [hclient] at hstep
  | ok client =>
    simp only [hclient] at hstep
    have moved (n : Client) (hn : client = some n) : namedClient log = some n.val := by
      subst hn
      obtain rfl : ⟨.initial, busy.applyEvent issueId n⟩ = w' := by simpa using hstep
      apply Classical.by_contradiction
      intro other
      exact busy_moved issueId n (acts.others n other)
    rcases loggedClient_ok hclient with ⟨two, unnamed⟩ | ⟨field, hfield, short, hfilter⟩
    · simp [unnamed] at moved
      exact absurd two (moved 2)
    · refine ⟨field, hfield, short, fun hd zero => ?_, fun hd range => ?_⟩
      · have unmoved : client = none := by
          cases client with
          | none => rfl
          | some n =>
            have named := moved n rfl
            have positive := (clientIndex_filter.mp hfilter.symm).2
            simp only [namedClient, hfield, hd, ↓reduceIte, Option.some.injEq] at named
            omega
        subst unmoved
        obtain rfl : (⟨.initial, busy⟩ : World) = w' := by simpa using hstep
        have zeroth : namedClient log = some (0 : Client).val := by
          simp [namedClient, hfield, hd, zero]
        exact busy_missed reports 0 (acts.named 0 zeroth)
      · have filtered : client = some ⟨(atoi field).toNat, by omega⟩ :=
          hfilter.trans (clientIndex_filter.mpr ⟨by simp; omega, by simp; omega⟩)
        have named := moved _ filtered
        simp [namedClient, hfield, hd] at named

/-- The runs over a set of texts, from whatever registry, are all lawful exactly
when each text of the set is attributable. -/
theorem logs_attributed_iff (texts : Set Text) :
    (∀ logs : List Text, (∀ log ∈ logs, log ∈ texts) → ∀ w : World, Counting w.shared →
        Lawful host callee logs w) ↔ ∀ log ∈ texts, Attributable log := by
  constructor
  · intro lawful log hlog
    have acts := (lawful [log] (by simpa using hlog) ⟨.initial, busy⟩ busy_counting).acts
    exact attributable_of_acts host callee acts
  · intro attributable logs within w counting
    refine lawful_of_acts host callee counting ?_
    refine throughout_of_along (fun w => Counting w.shared) ?_ counting
      (along_of_forall (fun log hlog _ => attributable log (within log hlog)) w)
    intro log w counting hlog
    obtain ⟨w', hstep, acts⟩ := Attributable.step host callee hlog counting
    exact ⟨w', hstep, acts, acts.counting counting⟩

/-- A call reported without a client is counted for client 2. -/
theorem unnamed_call_counted : ¬ Lawful (.willing (fun _ => 5) (fun _ => none) fun _ => none)
    (fun _ => .ok) ["doubleTalk".toList] ⟨.initial, .initial fun _ => none⟩ := by
  intro lawful
  obtain ⟨w', hstep, acts, -⟩ := lawful.acts
  have second := (acts.others 2 (by decide +kernel)).calls 0
  have counted : (logStep (.willing (fun _ => 5) (fun _ => none) fun _ => none) (fun _ => .ok)
      "doubleTalk".toList ⟨.initial, .initial fun _ => none⟩).toOption.map
        (fun w => w.shared.gSuccessCall 0 2) = some 1 := by
    decide +kernel
  rw [hstep] at counted
  have grown : w'.shared.gSuccessCall 0 2 = 1 := by simpa [Except.toOption] using counted
  rw [grown] at second
  exact absurd second (by decide)

end AutoTest
