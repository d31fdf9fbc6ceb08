import AutoTest.Registry

/-!
# Who owns a descriptor

`gSockets` keeps the descriptor of a client that was removed. Removing a USED
client closes its own descriptor; a `suspended` log closes whatever the entry
still holds.

* `Owned` is what the registry promises about descriptors.
* `Registered` adds that only a USED client owns one, which its own removal
  and a new client keep.
* `descriptors_owned_iff`: a run keeps the promise exactly when no log reaches
  an entry that is UNUSED and still holds a number.
-/

namespace AutoTest

open CString Program

structure Owned (net : Net) : Prop where
  opened : ∀ n, net.gClientFlag n = used → net.fds (net.gSockets n) = some (.client n)
  distinct : ∀ m n, net.gClientFlag m = used → net.gClientFlag n = used →
    net.gSockets m = net.gSockets n → m = n
  closed : ∀ c ∈ net.closed, c.2 = some (.client c.1)

/-- Zero is left out: it stands for no socket, so it is never closed. -/
structure Registered (net : Net) : Prop where
  flags : ∀ n, net.gClientFlag n = used ∨ net.gClientFlag n = unused
  opened : ∀ n, net.gClientFlag n = used → net.fds (net.gSockets n) = some (.client n)
  owner : ∀ d n, d ≠ error → net.fds d = some (.client n) →
    net.gClientFlag n = used ∧ net.gSockets n = d
  closed : ∀ c ∈ net.closed, c.2 = some (.client c.1)

theorem Registered.owned {net : Net} (h : Registered net) : Owned net where
  opened := h.opened
  distinct m n hm hn same := by
    have := h.opened m hm
    rw [same, h.opened n hn] at this
    simpa using this.symm
  closed := h.closed

/-- The descriptors of a process before its first client. -/
def processFds (opened : Int → Bool) (d : Int) : Option Holder :=
  if opened d then some .other else none

theorem empty_registered (opened : Int → Bool) : Registered (.empty (processFds opened)) where
  flags n := .inr rfl
  opened n h := by simp [Net.empty, unused, used] at h
  owner d n hd h := by
    simp only [Net.empty, processFds] at h
    split at h <;> simp at h
  closed c h := by simp [Net.empty] at h

/-! ## The operations of the registry -/

section Operations

variable {net : Net}

/-- The entry of a client that is not USED takes any number that is no open descriptor. -/
theorem Registered.refused (h : Registered net) {n : Client} (free : net.gClientFlag n ≠ used)
    (calls : Nat) (d : Int) : Registered { net with
      socketCalls := calls
      gSockets := Function.update net.gSockets n d } where
  flags := h.flags
  opened m hm := by
    have other : m ≠ n := by
      rintro rfl
      exact free hm
    simpa [other] using h.opened m hm
  owner e m he hfd := by
    obtain ⟨hm, hd⟩ := h.owner e m he hfd
    have other : m ≠ n := by
      rintro rfl
      exact free hm
    exact ⟨hm, by simpa [other] using hd⟩
  closed := h.closed

/-- A fresh descriptor makes a client USED. -/
theorem Registered.accepted (h : Registered net) {n : Client} (free : net.gClientFlag n ≠ used)
    {d : Int} (fresh : net.fds d = none) (after : Net)
    (flags : after.gClientFlag = Function.update net.gClientFlag n used)
    (sockets : after.gSockets = Function.update net.gSockets n d)
    (fds : after.fds = Function.update net.fds d (some (.client n)))
    (closed : after.closed = net.closed) : Registered after where
  flags m := by
    by_cases hm : m = n
    · simp [flags, hm]
    · simpa [flags, hm] using h.flags m
  opened m hm := by
    by_cases same : m = n
    · simp [sockets, fds, same]
    · have was : net.gClientFlag m = used := by simpa [flags, same] using hm
      have held := h.opened m was
      have apart : net.gSockets m ≠ d := by
        intro e
        rw [e, fresh] at held
        simp at held
      simpa [sockets, fds, same, apart] using held
  owner e m he hfd := by
    by_cases new : e = d
    · subst new
      obtain rfl : n = m := by simpa [fds] using hfd
      simp [flags, sockets]
    · have was : net.fds e = some (.client m) := by simpa [fds, new] using hfd
      obtain ⟨hm, hd⟩ := h.owner e m he was
      have other : m ≠ n := by
        rintro rfl
        exact free hm
      simp [flags, sockets, other, hm, hd]
  closed := by simpa [closed] using h.closed

theorem Registered.insert (h : Registered net) (inet : Inet) (answer : Nat → Int) (n : Client)
    (ipAddr : Text) : Registered (net.insert inet answer n ipAddr) := by
  unfold Net.insert
  by_cases flag : net.gClientFlag n = used
  · simpa [flag] using h
  · cases inet.pton ipAddr with
    | none => simpa [flag] using h
    | some v =>
      rcases net.socket_cases answer n with ⟨d, hd, fresh, hsock⟩ | hsock
      · simp only [flag, hsock, hd, ↓reduceIte, Net.reserve]
        exact h.accepted flag fresh _ rfl rfl rfl rfl
      · simp only [flag, hsock, ↓reduceIte, Net.reserve]
        exact h.refused flag _ _

/-- Emptying an entry that is USED, or that holds no number. -/
theorem Registered.remove (h : Registered net) {n : Client}
    (own : net.gClientFlag n = used ∨ net.gSockets n = error) : Registered (net.remove n) := by
  have flags : (net.remove n).gClientFlag = Function.update net.gClientFlag n unused := by
    unfold Net.remove Net.release
    split <;> rfl
  have sockets : (net.remove n).gSockets = net.gSockets := by
    unfold Net.remove Net.release
    split <;> rfl
  have others {m : Client} (hm : (net.remove n).gClientFlag m = used) :
      m ≠ n ∧ net.gClientFlag m = used := by
    have other : m ≠ n := by
      rintro rfl
      simp [flags, used, unused] at hm
    exact ⟨other, by simpa [flags, other] using hm⟩
  have hflags (m : Client) :
      (net.remove n).gClientFlag m = used ∨ (net.remove n).gClientFlag m = unused := by
    by_cases hm : m = n
    · simp [flags, hm]
    · simpa [flags, hm] using h.flags m
  by_cases empty : net.gSockets n = error
  · have fds : (net.remove n).fds = net.fds := by
      simp [Net.remove_fds, empty]
    have closed : (net.remove n).closed = net.closed := by
      simp [Net.remove, Net.release, Net.withText, Net.withFlag, Net.withSockAddr, empty]
    refine ⟨hflags, fun m hm => ?_, fun d m hd hfd => ?_, by simpa [closed] using h.closed⟩
    · simpa [fds, sockets] using h.opened m (others hm).2
    · rw [fds] at hfd
      obtain ⟨hm, hs⟩ := h.owner d m hd hfd
      have other : m ≠ n := by
        rintro rfl
        exact hd (hs.symm.trans empty)
      simp [flags, sockets, other, hm, hs]
  · have mine := h.opened n (own.resolve_right empty)
    have fds : (net.remove n).fds = Function.update net.fds (net.gSockets n) none := by
      simp [Net.remove_fds, empty]
    have closed : (net.remove n).closed = net.closed ++ [(n, some (.client n))] := by
      simp [Net.remove, Net.release, Net.withText, Net.withFlag, Net.withSockAddr, empty, mine]
    refine ⟨hflags, fun m hm => ?_, fun d m hd hfd => ?_, fun c hc => ?_⟩
    · obtain ⟨other, was⟩ := others hm
      have apart : net.gSockets m ≠ net.gSockets n :=
        fun same => other (h.owned.distinct m n was (own.resolve_right empty) same)
      simpa [fds, sockets, apart] using h.opened m was
    · have kept : d ≠ net.gSockets n := by
        rintro rfl
        simp [fds] at hfd
      obtain ⟨hm, hs⟩ := h.owner d m hd (by simpa [fds, kept] using hfd)
      have other : m ≠ n := by
        rintro rfl
        exact kept hs.symm
      simp [flags, sockets, other, hm, hs]
    · simp only [closed, List.mem_append, List.mem_singleton] at hc
      rcases hc with old | rfl
      · exact h.closed c old
      · rfl

/-- Emptying any other entry closes a descriptor of someone else, or none. -/
theorem Registered.remove_stray (h : Registered net) {n : Client}
    (stray : ¬ (net.gClientFlag n = used ∨ net.gSockets n = error)) : ¬ Owned (net.remove n) := by
  simp only [not_or] at stray
  intro owned
  have last := owned.closed (n, net.fds (net.gSockets n))
    (by simp [Net.remove, Net.release, Net.withFlag, Net.withText, Net.withSockAddr, stray.2])
  exact stray.1 (h.owner _ n stray.2 last).1

theorem Registered.add (h : Registered net) (inet : Inet) (answer : Nat → Int) (clientNum : Int)
    (ipAddr : Text) : Registered (net.add inet answer clientNum ipAddr) := by
  unfold Net.add
  cases clientIndex clientNum with
  | none => exact h
  | some n => exact h.insert inet answer n ipAddr

theorem Registered.del (h : Registered net) (clientNum : Int) : Registered (net.del clientNum) := by
  unfold Net.del
  cases clientIndex clientNum with
  | none => exact h
  | some n =>
    by_cases flag : net.gClientFlag n = unused
    · simpa [flag] using h
    · simpa [flag] using h.remove (.inl ((h.flags n).resolve_right flag))

theorem Registered.effect (h : Registered net) (host : Host) (l : RegistryLine) :
    Registered (l.effect host net) := by
  unfold RegistryLine.effect
  split
  · split
    · exact h.add ..
    · exact h
  · split
    · exact h.del _
    · exact h

end Operations

/-! ## Runs -/

inductive RegistryEvent where
  | line (l : RegistryLine)
  | log (t : Text)

variable (host : Host) (callee : Text → World → Except Fault World)

def registryStep : RegistryEvent → World → Except Fault World
  | .line l => perform host callee (cmdProc l.line)
  | .log t => perform host callee (syslogProcess t)

/-- A log is harmless when its client field can be scanned and, should it
report `suspended`, the entry it reaches is USED or holds no number. -/
def HarmlessLog (log : Text) (net : Net) : Prop :=
  ∀ issueId, getLogMsgIssueId log = some issueId → ∃ client, loggedClient log = .ok client ∧
    (issueId = .suspend → ∀ n ∈ client, net.gClientFlag n = used ∨ net.gSockets n = error)

def Harmless : RegistryEvent → World → Prop
  | .line l, w => l.Readable w.params
  | .log t, w => HarmlessLog t w.shared.net

theorem Registered.harmless {w : World} (h : Registered w.shared.net) (e : RegistryEvent)
    (harmless : Harmless e w) :
    ∃ w', registryStep host callee e w = .ok w' ∧ Registered w'.shared.net := by
  cases e with
  | line l =>
    obtain ⟨p, out, hrun⟩ := l.perform_line host callee harmless
    exact ⟨_, hrun, h.effect host l⟩
  | log t =>
    simp only [registryStep, perform_syslogProcess, logEffect]
    cases event : getLogMsgIssueId t with
    | none => exact ⟨w, rfl, h⟩
    | some issueId =>
      obtain ⟨client, names, safe⟩ := harmless issueId event
      simp only [names]
      cases client with
      | none => exact ⟨w, rfl, h⟩
      | some n =>
        refine ⟨_, rfl, ?_⟩
        cases issueId with
        | suspend => exact h.remove (safe rfl n rfl)
        | talkBuild => exact h
        | talkConference => exact h

theorem Registered.kept {w w' : World} (h : Registered w.shared.net) (e : RegistryEvent)
    (hrun : registryStep host callee e w = .ok w') (owned : Owned w'.shared.net) :
    Harmless e w := by
  cases e with
  | line l =>
    apply Classical.by_contradiction
    intro unreadable
    rw [registryStep, l.perform_unset host callee unreadable] at hrun
    simp at hrun
  | log t =>
    intro issueId event
    simp only [registryStep, perform_syslogProcess, logEffect, event] at hrun
    cases names : loggedClient t with
    | error f => simp [names] at hrun
    | ok client =>
      refine ⟨client, rfl, ?_⟩
      rintro rfl n hn
      obtain rfl : client = some n := hn
      obtain rfl : { w with shared := w.shared.applyEvent .suspend n } = w' := by
        simpa [names] using hrun
      apply Classical.by_contradiction
      intro stray
      exact h.remove_stray stray owned

/-- From the empty registry, every step of a run is defined and leaves every
descriptor with its owner exactly when every step of the run is harmless. -/
theorem descriptors_owned_iff (opened : Int → Bool) (events : List RegistryEvent) :
    Throughout (registryStep host callee) (fun _ _ w => Owned w.shared.net) events
        ⟨.initial, .initial (processFds opened)⟩ ↔
      Along (registryStep host callee) Harmless events
        ⟨.initial, .initial (processFds opened)⟩ := by
  have start : Registered (Shared.initial (processFds opened)).net := empty_registered opened
  constructor
  · refine along_of_throughout (fun w => Registered w.shared.net) ?_ start
    intro e w w' h hrun owned
    have harmless := h.kept host callee e hrun owned
    obtain ⟨v, hv, registered⟩ := h.harmless host callee e harmless
    obtain rfl : v = w' := by simpa [hv] using hrun
    exact ⟨harmless, registered⟩
  · refine throughout_of_along (fun w => Registered w.shared.net) ?_ start
    intro e w h harmless
    obtain ⟨w', hrun, registered⟩ := h.harmless host callee e harmless
    exact ⟨w', hrun, registered.owned, registered⟩

def addFirst : RegistryLine where
  line := "add 1 192.168.10.1".toList
  argv := ["add".toList, "1".toList, "192.168.10.1".toList]
  cmdNum := 2
  tokens := by decide +kernel
  named := by decide
  func := by decide

def delFirst : RegistryLine where
  line := "del 1".toList
  argv := ["del".toList, "1".toList]
  cmdNum := 5
  tokens := by decide +kernel
  named := by decide
  func := by decide

def addSecond : RegistryLine where
  line := "add 2 192.168.10.2".toList
  argv := ["add".toList, "2".toList, "192.168.10.2".toList]
  cmdNum := 2
  tokens := by decide +kernel
  named := by decide
  func := by decide

/-- Client 1 is removed, client 2 gets its descriptor, and a late log about
client 1 closes it. -/
def lateLog : List RegistryEvent :=
  [.line addFirst, .line delFirst, .line addSecond, .log "client 1 suspended ".toList]

theorem lateLog_closes_second :
    ¬ Throughout (registryStep (.willing (fun _ => 5) (fun _ => none) fun _ => none)
        fun _ => .ok) (fun _ _ w => Owned w.shared.net) lateLog
      ⟨.initial, .initial (processFds fun d => d ≤ 4)⟩ := by
  intro h
  obtain ⟨w, hrun, owned⟩ := h.run (empty_registered _).owned
  have closes : (runAll (registryStep (.willing (fun _ => 5) (fun _ => none) fun _ => none)
      fun _ => .ok) lateLog ⟨.initial, .initial (processFds fun d => d ≤ 4)⟩).toOption.map
        (fun w => w.shared.net.closed) = some [(1, some (.client 1)), (1, some (.client 2))] := by
    decide +kernel
  rw [hrun] at closes
  have last := owned.closed (1, some (.client 2)) (by simp_all [Except.toOption])
  simp at last

end AutoTest
