import Mathlib.Data.List.Basic
import OffsProof.CText

/-! # The Windows service manager

The operations of `windows_service_ops`, by which the updater and the installer control the
daemon.  Each of them opens the service manager and, but for the installation, the service, and
has to close both handles on every way out.

What the service manager answers is any function of how many calls have been made to it
(`Manager`).  A handle is a number that is given out once.  A call with a handle that is not
open, or not open any more, is a misuse.

Whatever the manager answers, an operation gives back the handles that it has opened and no
others, misuses none, and sleeps no longer than its timeout (`handles_given_back`).  The proof
follows an operation call by call with the handles that it has at that point on top of those from
before (`Has`); the two that open something and the way out are the same in all operations and
are stated once (`openManager_released`, `openService_released`, `closeBoth_has`), so that for
each operation only what lies between them is left.

An operation that waits for a state returns OK only if that state was reported last
(`ok_was_reported`).  Here the calls are counted, since an answer is told from others by the
number of calls before it (`OpenService` counts twice, once for its handle).
-/
namespace Offs.ServiceControl
open CText

/-- `dwCurrentState` -/
inductive State
  | stopped
  | startPending
  | stopPending
  | running
  | other
  deriving DecidableEq, Repr

/-- `GetLastError` -/
inductive Error
  | doesNotExist
  | notActive
  | alreadyRunning
  | alreadyExists
  | markedForDelete
  | other
  deriving DecidableEq, Repr

/-- `service_result_e` -/
inductive ServiceResult
  | ok
  | error
  | timeout
  | notInstalled
  deriving DecidableEq, Repr

/-- The answers, by the number of calls before. -/
structure Manager where
  openManager : Nat → Bool
  openService : Nat → Bool
  createService : Nat → Bool
  /-- `ControlService`, with the state that it reports. -/
  controlStop : Nat → Option State
  queryStatus : Nat → Option State
  startService : Nat → Bool
  deleteService : Nat → Bool
  lastError : Nat → Error

/-- A process that talks to the manager. -/
structure Run where
  calls : Nat
  /-- The next handle. -/
  next : Nat
  /-- The handles that are open, the last one first. -/
  opened : List Nat
  misused : Bool
  /-- In milliseconds. -/
  slept : Nat
  /-- The last state that was reported. -/
  seen : Option State
  /-- The programs of the services that have been created. -/
  created : List Text
  deriving DecidableEq, Repr

abbrev Scm := StateM Run

/-! ## The calls -/

section Calls
variable (m : Manager)

/-- A call that returns a handle, or NULL. -/
def openHandle (opens : Nat → Bool) : Scm (Option Nat) := fun r =>
  if opens r.calls then
    (some r.next,
      { r with calls := r.calls + 1, next := r.next + 1, opened := r.next :: r.opened })
  else (none, { r with calls := r.calls + 1 })

/-- A call with a handle. -/
def withHandle {α : Type} (h : Nat) (answers : Nat → α) : Scm α := fun r =>
  (answers r.calls, { r with calls := r.calls + 1, misused := r.misused || !r.opened.contains h })

/-- `OpenSCManager` -/
def openManager : Scm (Option Nat) := openHandle m.openManager

/-- `OpenService` -/
def openService (scm : Nat) : Scm (Option Nat) := do
  withHandle scm fun _ => ()
  openHandle m.openService

/-- `CreateServiceW` -/
def createService (scm : Nat) (program : Text) : Scm (Option Nat) := do
  withHandle scm fun _ => ()
  match ← openHandle m.createService with
  | none => return none
  | some svc =>
    modify fun r => { r with created := r.created ++ [program] }
    return some svc

/-- A call that reports the state of the service. -/
def statusCall (svc : Nat) (answers : Nat → Option State) : Scm (Option State) := do
  let answer ← withHandle svc answers
  modify fun r => { r with seen := answer.or r.seen }
  return answer

/-- `GetLastError` -/
def getLastError : Scm Error := fun r => (m.lastError r.calls, { r with calls := r.calls + 1 })

/-- `CloseServiceHandle` -/
def close (h : Nat) : Scm Unit := fun r =>
  ((), { r with
    calls := r.calls + 1
    misused := r.misused || !r.opened.contains h
    opened := r.opened.erase h })

/-- `Sleep` -/
def sleep (ms : Nat) : Scm Unit := modify fun r => { r with slept := r.slept + ms }

end Calls

/-! ## The operations -/

section Operations
variable (m : Manager)

/-- `STOP_POLL_TIMEOUT_MS` -/
def stopPollTimeoutMs : Nat := 30000

/-- `STOP_POLL_INTERVAL_MS` -/
def stopPollIntervalMs : Nat := 200

/-- The loop of `service_windows_stop`, with the rounds that are left to its timeout. -/
def stopPoll (scm svc : Nat) : Nat → Option State → Scm ServiceResult
  | 0, _ => do
    close svc
    close scm
    return .timeout
  | left + 1, state => do
    if state = some .stopped then
      close svc
      close scm
      return .ok
    else
      sleep stopPollIntervalMs
      if left = 0 then
        close svc
        close scm
        return .timeout
      else
        match ← statusCall svc m.queryStatus with
        | none =>
          close svc
          close scm
          return .error
        | some state => stopPoll scm svc left (some state)

def serviceWindowsStop : Scm ServiceResult := do
  match ← openManager m with
  | none => return .error
  | some scm =>
    match ← openService m scm with
    | none =>
      close scm
      return if (← getLastError m) = .doesNotExist then .notInstalled else .error
    | some svc =>
      match ← statusCall svc m.controlStop with
      | none =>
        let error ← getLastError m
        close svc
        close scm
        return if error = .notActive then .ok else .error
      | some state =>
        stopPoll m scm svc (stopPollTimeoutMs / stopPollIntervalMs) (some state)

/-- The result of a call that may fail for a reason that is as good as success. -/
def unlessExcused (done : Bool) (excuse : Error) : Scm ServiceResult := do
  if done then return .ok
  else return if (← getLastError m) = excuse then .ok else .error

def serviceWindowsStart : Scm ServiceResult := do
  match ← openManager m with
  | none => return .error
  | some scm =>
    match ← openService m scm with
    | none =>
      close scm
      return if (← getLastError m) = .doesNotExist then .notInstalled else .error
    | some svc =>
      let started ← withHandle svc m.startService
      let result ← unlessExcused m started .alreadyRunning
      close svc
      close scm
      return result

def serviceWindowsIsRunning : Scm Bool := do
  match ← openManager m with
  | none => return false
  | some scm =>
    match ← openService m scm with
    | none =>
      close scm
      return false
    | some svc =>
      let state ← statusCall svc m.queryStatus
      close svc
      close scm
      return state = some .running

/-- `DEFAULT_BINARY_PATH` -/
def defaultBinaryPath : Text := lit "C:\\Program Files\\offs\\offs-daemon.exe"

/-- `service_windows_build_binary_path`; `converts` is whether the path can be converted and
stored. -/
def serviceWindowsBuildBinaryPath (converts : Bool) (installDir : Option Text) : Option Text :=
  if converts then
    match installDir with
    | none | some [] => some defaultBinaryPath
    | some dir =>
      if dir.getLast? = some '\\' then some (dir ++ lit "offs-daemon.exe")
      else some (dir ++ lit "\\offs-daemon.exe")
  else none

def serviceWindowsInstall (converts : Bool) (installDir : Option Text) : Scm ServiceResult := do
  match serviceWindowsBuildBinaryPath converts installDir with
  | none => return .error
  | some program =>
    match ← openManager m with
    | none => return .error
    | some scm =>
      match ← createService m scm program with
      | none =>
        let error ← getLastError m
        close scm
        return if error = .alreadyExists ∨ error = .markedForDelete then .ok else .error
      | some svc =>
        -- The description and the start are tried, and their failures ignored.
        withHandle svc fun _ => ()
        let _ ← withHandle svc m.startService
        close svc
        close scm
        return .ok

def serviceWindowsUninstall : Scm ServiceResult := do
  let _ ← serviceWindowsStop m
  match ← openManager m with
  | none => return .error
  | some scm =>
    match ← openService m scm with
    | none =>
      let error ← getLastError m
      close scm
      return if error = .doesNotExist then .ok else .error
    | some svc =>
      let deleted ← withHandle svc m.deleteService
      let result ← unlessExcused m deleted .markedForDelete
      close svc
      close scm
      return result

/-- The loop of the two operations that wait, with the rounds that are left. -/
def waitLoop (wanted : State) (intervalMs scm svc : Nat) : Nat → Scm ServiceResult
  | 0 => do
    close svc
    close scm
    return .timeout
  | left + 1 => do
    match ← statusCall svc m.queryStatus with
    | none =>
      close svc
      close scm
      return .error
    | some state =>
      if state = wanted then
        close svc
        close scm
        return .ok
      else
        sleep intervalMs
        waitLoop wanted intervalMs scm svc left

/-- What `service_windows_wait_for_stop` and `service_windows_wait_for_start` share. -/
def waitFor (wanted : State) (intervalMs : Nat) (timeoutMs : Int) : Scm ServiceResult := do
  match ← openManager m with
  | none => return .error
  | some scm =>
    match ← openService m scm with
    | none =>
      close scm
      return .notInstalled
    | some svc => waitLoop m wanted intervalMs scm svc (timeoutMs.tdiv intervalMs).toNat

def serviceWindowsWaitForStop (timeoutMs : Int) : Scm ServiceResult :=
  waitFor m .stopped 300 timeoutMs

def serviceWindowsWaitForStart (timeoutMs : Int) : Scm ServiceResult :=
  waitFor m .running 500 timeoutMs

end Operations

/-! ## What the calls do to the handles -/

theorem bind_apply {α β : Type} (p : Scm α) (f : α → Scm β) (r : Run) :
    (p >>= f) r = f (p r).1 (p r).2 := rfl

/-- The run has `base` open, no misuse has been added, and no sleep.  It is what holds after each
call of an operation, with the handles of the operation on top of `base` as long as they are
open. -/
structure Has (base : List Nat) (r r' : Run) : Prop where
  opened : r'.opened = base
  misused : r'.misused = r.misused
  slept : r'.slept = r.slept

theorem openHandle_cases (opens : Nat → Bool) (r : Run) :
    (∃ r', openHandle opens r = (none, r') ∧ Has r.opened r r') ∨
      ∃ h r', openHandle opens r = (some h, r') ∧ Has (h :: r.opened) r r' := by
  unfold openHandle
  split
  · exact .inr ⟨_, _, rfl, rfl, rfl, rfl⟩
  · exact .inl ⟨_, rfl, rfl, rfl, rfl⟩

theorem withHandle_has {α : Type} {h : Nat} {r : Run} (hopen : h ∈ r.opened) (answers : Nat → α) :
    Has r.opened r (withHandle h answers r).2 := by
  have hcontains : r.opened.contains h = true := by simpa using hopen
  refine ⟨rfl, ?_, rfl⟩
  show (r.misused || !r.opened.contains h) = r.misused
  rw [hcontains, Bool.not_true, Bool.or_false]

theorem statusCall_has {h : Nat} {r : Run} (hopen : h ∈ r.opened) (answers : Nat → Option State) :
    Has r.opened r (statusCall h answers r).2 := by
  obtain ⟨hopened, hmisused, hslept⟩ := withHandle_has hopen answers
  exact ⟨hopened, hmisused, hslept⟩

theorem getLastError_has (m : Manager) (r : Run) : Has r.opened r (getLastError m r).2 :=
  ⟨rfl, rfl, rfl⟩

theorem unlessExcused_has (m : Manager) (done : Bool) (excuse : Error) (r : Run) :
    Has r.opened r (unlessExcused m done excuse r).2 := by
  unfold unlessExcused
  split
  · exact ⟨rfl, rfl, rfl⟩
  · exact getLastError_has m r

/-- Closing the handle that was opened last. -/
theorem close_has {h : Nat} {base : List Nat} {r : Run} (hopen : r.opened = h :: base) :
    Has base r (close h r).2 := by
  refine ⟨?_, ?_, rfl⟩
  · show r.opened.erase h = base
    rw [hopen, List.erase_cons_head]
  · show (r.misused || !r.opened.contains h) = r.misused
    rw [hopen]
    simp

theorem Has.trans {base base' : List Nat} {r r' r'' : Run} (h : Has base r r')
    (h' : Has base' r' r'') : Has base' r r'' :=
  ⟨h'.opened, h'.misused.trans h.misused, h'.slept.trans h.slept⟩

/-- The way out of an operation. -/
theorem closeBoth_has {α : Type} {scm svc : Nat} {base : List Nat} {r : Run}
    (hopen : r.opened = svc :: scm :: base) (result : α) :
    Has base r ((do close svc; close scm; return result : Scm α) r).2 := by
  have hsvc := close_has hopen
  exact hsvc.trans (close_has hsvc.opened)

/-- `OpenService` and `CreateServiceW` use the handle of the manager. -/
theorem openService_cases (m : Manager) {scm : Nat} {base : List Nat} {r : Run}
    (hopen : r.opened = scm :: base) :
    (∃ r', openService m scm r = (none, r') ∧ Has (scm :: base) r r') ∨
      ∃ svc r', openService m scm r = (some svc, r') ∧ Has (svc :: scm :: base) r r' := by
  have huse : Has r.opened r (withHandle scm (fun _ => ()) r).2 :=
    withHandle_has (by simp [hopen]) _
  have hopened := huse.opened.trans hopen
  rcases openHandle_cases m.openService (withHandle scm (fun _ => ()) r).2 with
    ⟨r', heq, h⟩ | ⟨svc, r', heq, h⟩
  · exact .inl ⟨r', heq, hopened ▸ huse.trans h⟩
  · exact .inr ⟨svc, r', heq, hopened ▸ huse.trans h⟩

theorem createService_cases (m : Manager) {scm : Nat} {base : List Nat} {r : Run}
    (hopen : r.opened = scm :: base) (program : Text) :
    (∃ r', createService m scm program r = (none, r') ∧ Has (scm :: base) r r') ∨
      ∃ svc r', createService m scm program r = (some svc, r') ∧ Has (svc :: scm :: base) r r' := by
  have huse : Has r.opened r (withHandle scm (fun _ => ()) r).2 :=
    withHandle_has (by simp [hopen]) _
  have hopened := huse.opened.trans hopen
  rcases openHandle_cases m.createService (withHandle scm (fun _ => ()) r).2 with
    ⟨r', heq, h⟩ | ⟨svc, r', heq, h⟩
  · refine .inl ⟨r', ?_, hopened ▸ huse.trans h⟩
    simp only [createService, bind_apply, heq]
    rfl
  · obtain ⟨hbase, hmisused, hslept⟩ := huse.trans h
    refine .inr ⟨svc, { r' with created := r'.created ++ [program] }, ?_, ?_, hmisused, hslept⟩
    · simp only [createService, bind_apply, heq]
      rfl
    · exact hopened ▸ hbase

/-! ## The operations give their handles back -/

/-- The handles are those from before, none has been misused, and the sleep is within the budget:
what holds after an operation. -/
structure Released (base : List Nat) (budget : Nat) (r r' : Run) : Prop where
  opened : r'.opened = base
  misused : r'.misused = r.misused
  slept : r'.slept ≤ r.slept + budget

theorem Has.released {base : List Nat} {r r' : Run} (h : Has base r r') (budget : Nat) :
    Released base budget r r' :=
  ⟨h.opened, h.misused, h.slept ▸ Nat.le_add_right _ _⟩

theorem Has.then_released {base base' : List Nat} {budget : Nat} {r r' r'' : Run}
    (h : Has base' r r') (h' : Released base budget r' r'') : Released base budget r r'' :=
  ⟨h'.opened, h'.misused.trans h.misused, h.slept ▸ h'.slept⟩

theorem Released.trans {base base' : List Nat} {budget budget' : Nat} {r r' r'' : Run}
    (h : Released base' budget r r') (h' : Released base budget' r' r'') :
    Released base (budget + budget') r r'' :=
  ⟨h'.opened, h'.misused.trans h.misused, by have := h.slept; have := h'.slept; omega⟩

section
variable {m : Manager} {scm svc : Nat} {base : List Nat} {r : Run}

theorem sleep_released (ms : Nat) : Released r.opened ms r (sleep ms r).2 :=
  ⟨rfl, rfl, Nat.le_refl _⟩

theorem stopPoll_released (left : Nat) (state : Option State) (hopen : r.opened = svc :: scm :: base) :
    Released base (left * stopPollIntervalMs) r (stopPoll m scm svc left state r).2 := by
  induction left generalizing r state with
  | zero => exact (closeBoth_has hopen _).released _
  | succ left ih =>
    rw [stopPoll]
    split
    · exact (closeBoth_has hopen _).released _
    · rw [bind_apply]
      have hsleep : Released (svc :: scm :: base) stopPollIntervalMs r (sleep stopPollIntervalMs r).2 :=
        hopen ▸ sleep_released stopPollIntervalMs
      rw [Nat.succ_mul, Nat.add_comm]
      refine hsleep.trans ?_
      generalize (sleep stopPollIntervalMs r).2 = r₁ at hsleep ⊢
      have hopen₁ := hsleep.opened
      split
      · exact (closeBoth_has hopen₁ _).released _
      · rw [bind_apply]
        have hquery := statusCall_has (h := svc) (r := r₁) (by simp [hopen₁]) m.queryStatus
        rw [hopen₁] at hquery
        refine hquery.then_released ?_
        cases (statusCall svc m.queryStatus r₁).1 with
        | none => exact (closeBoth_has hquery.opened _).released _
        | some state => exact ih (some state) hquery.opened

theorem waitLoop_released (wanted : State) (intervalMs left : Nat)
    (hopen : r.opened = svc :: scm :: base) :
    Released base (left * intervalMs) r (waitLoop m wanted intervalMs scm svc left r).2 := by
  induction left generalizing r with
  | zero => exact (closeBoth_has hopen _).released _
  | succ left ih =>
    rw [waitLoop, bind_apply]
    have hquery := statusCall_has (h := svc) (r := r) (by simp [hopen]) m.queryStatus
    rw [hopen] at hquery
    refine hquery.then_released ?_
    cases (statusCall svc m.queryStatus r).1 with
    | none => exact (closeBoth_has hquery.opened _).released _
    | some state =>
      dsimp only
      split
      · exact (closeBoth_has hquery.opened _).released _
      · rw [bind_apply, Nat.succ_mul, Nat.add_comm]
        have hsleep : Released (svc :: scm :: base) intervalMs _
            (sleep intervalMs (statusCall svc m.queryStatus r).2).2 :=
          hquery.opened ▸ sleep_released intervalMs
        exact hsleep.trans (ih hsleep.opened)

/-- What every operation begins with: the manager, and an operation that fails without it. -/
theorem openManager_released {α : Type} {budget : Nat} (r : Run) {k : Option Nat → Scm α}
    (hnone : ∀ r', (k none r').2 = r')
    (hsome : ∀ scm r', r'.opened = scm :: r.opened →
      Released r.opened budget r' (k (some scm) r').2) :
    Released r.opened budget r ((openManager m >>= k) r).2 := by
  rw [bind_apply]
  rcases openHandle_cases m.openManager r with ⟨r', heq, h⟩ | ⟨scm, r', heq, h⟩
  · rw [openManager, heq, hnone]
    exact h.released budget
  · rw [openManager, heq]
    exact h.then_released (hsome scm r' h.opened)

/-- And then the service; without it the manager is closed. -/
theorem openService_released {α : Type} {budget : Nat} {k : Option Nat → Scm α}
    (hopen : r.opened = scm :: base)
    (hnone : ∀ r', r'.opened = scm :: base → Has base r' (k none r').2)
    (hsome : ∀ svc r', r'.opened = svc :: scm :: base →
      Released base budget r' (k (some svc) r').2) :
    Released base budget r ((openService m scm >>= k) r).2 := by
  rw [bind_apply]
  rcases openService_cases m hopen with ⟨r', heq, h⟩ | ⟨svc, r', heq, h⟩
  · rw [heq]
    exact h.then_released ((hnone r' h.opened).released budget)
  · rw [heq]
    exact h.then_released (hsome svc r' h.opened)

/-- The way out without the service, where the error is looked up last. -/
theorem close_getLastError {α : Type} (hopen : r.opened = scm :: base) (f : Error → α) :
    Has base r ((do close scm; return f (← getLastError m) : Scm α) r).2 := by
  have hclose := close_has hopen
  exact ⟨hclose.opened, hclose.misused, hclose.slept⟩

end

theorem stop_released (m : Manager) (r : Run) :
    Released r.opened stopPollTimeoutMs r (serviceWindowsStop m r).2 := by
  refine openManager_released r (fun _ => rfl) fun scm r₁ h₁ => ?_
  refine openService_released h₁ (fun r' h => ?_) fun svc r₂ h₂ => ?_
  · exact close_getLastError h _
  · dsimp only
    rw [bind_apply]
    have hcontrol := statusCall_has (h := svc) (r := r₂) (by simp [h₂]) m.controlStop
    rw [h₂] at hcontrol
    refine hcontrol.then_released ?_
    cases (statusCall svc m.controlStop r₂).1 with
    | none =>
      have herror := getLastError_has m (statusCall svc m.controlStop r₂).2
      exact (herror.trans (closeBoth_has (herror.opened.trans hcontrol.opened) _)).released _
    | some state =>
      have hrounds : stopPollTimeoutMs / stopPollIntervalMs * stopPollIntervalMs = stopPollTimeoutMs :=
        rfl
      have hpoll := stopPoll_released (m := m) (stopPollTimeoutMs / stopPollIntervalMs) (some state)
        hcontrol.opened
      rwa [hrounds] at hpoll

theorem start_released (m : Manager) (r : Run) :
    Released r.opened 0 r (serviceWindowsStart m r).2 := by
  refine openManager_released r (fun _ => rfl) fun scm r₁ h₁ => ?_
  refine openService_released h₁ (fun r' h => ?_) fun svc r₂ h₂ => ?_
  · exact close_getLastError h _
  · have hstart := withHandle_has (h := svc) (r := r₂) (by simp [h₂]) m.startService
    have hresult := hstart.trans (unlessExcused_has m (withHandle svc m.startService r₂).1
      .alreadyRunning (withHandle svc m.startService r₂).2)
    exact (hresult.trans (closeBoth_has (hresult.opened.trans (hstart.opened.trans h₂)) _)).released _

theorem isRunning_released (m : Manager) (r : Run) :
    Released r.opened 0 r (serviceWindowsIsRunning m r).2 := by
  refine openManager_released r (fun _ => rfl) fun scm r₁ h₁ => ?_
  refine openService_released h₁ (fun r' h => close_has h) fun svc r₂ h₂ => ?_
  have hquery := statusCall_has (h := svc) (r := r₂) (by simp [h₂]) m.queryStatus
  exact (hquery.trans (closeBoth_has (hquery.opened.trans h₂) _)).released _

theorem install_released (m : Manager) (converts : Bool) (installDir : Option Text) (r : Run) :
    Released r.opened 0 r (serviceWindowsInstall m converts installDir r).2 := by
  unfold serviceWindowsInstall
  cases serviceWindowsBuildBinaryPath converts installDir with
  | none => exact ⟨rfl, rfl, Nat.le_refl _⟩
  | some program =>
    refine openManager_released r (fun _ => rfl) fun scm r₁ h₁ => ?_
    dsimp only
    rw [bind_apply]
    rcases createService_cases m h₁ program with ⟨r₂, heq, h₂⟩ | ⟨svc, r₂, heq, h₂⟩
    · rw [heq]
      have herror := getLastError_has m r₂
      exact (h₂.trans (herror.trans (close_has (herror.opened.trans h₂.opened)))).released _
    · rw [heq]
      have hdescribe := withHandle_has (h := svc) (r := r₂) (by simp [h₂.opened]) fun _ => ()
      have hopen := hdescribe.opened.trans h₂.opened
      have hstart := withHandle_has (h := svc) (r := (withHandle svc (fun _ => ()) r₂).2)
        (by simp [hopen]) m.startService
      have hall := h₂.trans (hdescribe.trans hstart)
      exact (hall.trans (closeBoth_has (hstart.opened.trans hopen) _)).released _

theorem uninstall_released (m : Manager) (r : Run) :
    Released r.opened stopPollTimeoutMs r (serviceWindowsUninstall m r).2 := by
  unfold serviceWindowsUninstall
  rw [bind_apply]
  have hstop := stop_released m r
  generalize (serviceWindowsStop m r).2 = r₀ at hstop ⊢
  refine Released.trans hstop (?_ : Released r.opened 0 _ _)
  rw [← hstop.opened]
  refine openManager_released r₀ (fun _ => rfl) fun scm r₁ h₁ => ?_
  refine openService_released h₁ (fun r' h => ?_) fun svc r₂ h₂ => ?_
  · have herror := getLastError_has m r'
    exact herror.trans (close_has (herror.opened.trans h))
  · have hdelete := withHandle_has (h := svc) (r := r₂) (by simp [h₂]) m.deleteService
    have hresult := hdelete.trans (unlessExcused_has m (withHandle svc m.deleteService r₂).1
      .markedForDelete (withHandle svc m.deleteService r₂).2)
    exact (hresult.trans (closeBoth_has (hresult.opened.trans (hdelete.opened.trans h₂)) _)).released _

theorem waitFor_released (m : Manager) (wanted : State) (intervalMs : Nat) (timeoutMs : Int)
    (r : Run) :
    Released r.opened ((timeoutMs.tdiv intervalMs).toNat * intervalMs) r
      (waitFor m wanted intervalMs timeoutMs r).2 := by
  refine openManager_released r (fun _ => rfl) fun scm r₁ h₁ => ?_
  refine openService_released h₁ (fun r' h => close_has h) fun svc r₂ h₂ => ?_
  exact waitLoop_released wanted intervalMs _ h₂

/-- The members of `windows_service_ops`. -/
inductive Operation
  | stop
  | start
  | isRunning
  | install (converts : Bool) (installDir : Option Text)
  | uninstall
  | waitForStop (timeoutMs : Int)
  | waitForStart (timeoutMs : Int)
  deriving DecidableEq, Repr

namespace Operation

/-- The run after the operation. -/
def perform (m : Manager) : Operation → Run → Run
  | .stop, r => (serviceWindowsStop m r).2
  | .start, r => (serviceWindowsStart m r).2
  | .isRunning, r => (serviceWindowsIsRunning m r).2
  | .install converts installDir, r => (serviceWindowsInstall m converts installDir r).2
  | .uninstall, r => (serviceWindowsUninstall m r).2
  | .waitForStop timeoutMs, r => (serviceWindowsWaitForStop m timeoutMs r).2
  | .waitForStart timeoutMs, r => (serviceWindowsWaitForStart m timeoutMs r).2

/-- How long it may sleep. -/
def limit : Operation → Nat
  | .stop | .uninstall => stopPollTimeoutMs
  | .waitForStop timeoutMs | .waitForStart timeoutMs => timeoutMs.toNat
  | .start | .isRunning | .install _ _ => 0

theorem perform_released (m : Manager) (op : Operation) (r : Run) :
    Released r.opened op.limit r (op.perform m r) := by
  -- A timeout that is not a multiple of the interval is rounded down, a negative one up to 0.
  have hrounds : ∀ (timeoutMs : Int) (intervalMs : Nat),
      (timeoutMs.tdiv intervalMs).toNat * intervalMs ≤ timeoutMs.toNat := by
    intro timeoutMs intervalMs
    cases timeoutMs with
    | ofNat n => exact Nat.div_mul_le_self n intervalMs
    | negSucc n =>
      have hneg : (Int.negSucc n).tdiv intervalMs ≤ 0 := by
        rw [Int.negSucc_eq, Int.neg_tdiv]
        have hpos : 0 ≤ ((n : Int) + 1).tdiv intervalMs :=
          Int.tdiv_nonneg (by omega) (Int.natCast_nonneg intervalMs)
        omega
      rw [Int.toNat_of_nonpos hneg, Nat.zero_mul]
      exact Nat.zero_le _
  have hwait : ∀ (wanted : State) (intervalMs : Nat) (timeoutMs : Int),
      Released r.opened timeoutMs.toNat r (waitFor m wanted intervalMs timeoutMs r).2 := by
    intro wanted intervalMs timeoutMs
    obtain ⟨hopened, hmisused, hslept⟩ := waitFor_released m wanted intervalMs timeoutMs r
    exact ⟨hopened, hmisused, Nat.le_trans hslept (Nat.add_le_add_left (hrounds _ _) _)⟩
  cases op with
  | stop => exact stop_released m r
  | start => exact start_released m r
  | isRunning => exact isRunning_released m r
  | install converts installDir => exact install_released m converts installDir r
  | uninstall => exact uninstall_released m r
  | waitForStop timeoutMs => exact hwait .stopped 300 timeoutMs
  | waitForStart timeoutMs => exact hwait .running 500 timeoutMs

end Operation

/-- **The handles are given back.**  Whatever the service manager answers, any sequence of
operations leaves open what was open before, misuses no handle, and sleeps no longer than the
timeouts of its operations. -/
theorem handles_given_back (m : Manager) (ops : List Operation) (r : Run) :
    Released r.opened (ops.map Operation.limit).sum r (ops.foldl (fun r op => op.perform m r) r) := by
  induction ops generalizing r with
  | nil => exact ⟨rfl, rfl, Nat.le_refl _⟩
  | cons op ops ih =>
    have hop := op.perform_released m r
    have hrest := ih (op.perform m r)
    rw [hop.opened] at hrest
    exact hop.trans hrest

/-! ## What OK means -/

section
variable {m : Manager} {scm svc : Nat} {r : Run}

theorem stopPoll_seen {left : Nat} {state : Option State} (hseen : r.seen = state)
    (h : (stopPoll m scm svc left state r).1 = .ok) :
    (stopPoll m scm svc left state r).2.seen = some .stopped := by
  induction left generalizing r state with
  | zero => cases h
  | succ left ih =>
    rw [stopPoll] at h ⊢
    split at h
    · rename_i hstopped
      rw [if_pos hstopped]
      exact hseen.trans hstopped
    · rename_i hrunning
      rw [if_neg hrunning]
      rw [bind_apply] at h ⊢
      split at h
      · cases h
      · rename_i hleft
        rw [if_neg hleft]
        rw [bind_apply] at h ⊢
        generalize (sleep stopPollIntervalMs r).2 = r₁ at h ⊢
        have hseen₁ : (statusCall svc m.queryStatus r₁).2.seen =
          (statusCall svc m.queryStatus r₁).1.or r₁.seen := rfl
        cases hanswer : (statusCall svc m.queryStatus r₁).1 with
        | none =>
          rw [hanswer] at h
          cases h
        | some state =>
          rw [hanswer] at h hseen₁
          exact ih hseen₁ h

theorem waitLoop_seen {wanted : State} {intervalMs left : Nat}
    (h : (waitLoop m wanted intervalMs scm svc left r).1 = .ok) :
    (waitLoop m wanted intervalMs scm svc left r).2.seen = some wanted := by
  induction left generalizing r with
  | zero => cases h
  | succ left ih =>
    rw [waitLoop, bind_apply] at h ⊢
    have hseen : (statusCall svc m.queryStatus r).2.seen =
      (statusCall svc m.queryStatus r).1.or r.seen := rfl
    cases hanswer : (statusCall svc m.queryStatus r).1 with
    | none =>
      rw [hanswer] at h
      cases h
    | some state =>
      rw [hanswer] at h hseen
      dsimp only at h ⊢
      split at h
      · rename_i hwanted
        rw [if_pos hwanted]
        exact hseen.trans (congrArg some hwanted)
      · rename_i hother
        rw [if_neg hother]
        rw [bind_apply] at h ⊢
        exact ih h

theorem openHandle_calls (opens : Nat → Bool) (r : Run) :
    (openHandle opens r).2.calls = r.calls + 1 := by
  unfold openHandle
  split <;> rfl

/-- What holds of every way on from the two calls that an operation begins with holds of the
operation.  The calls are counted, for the answers depend on their number. -/
theorem opened_cases {α : Type} {P : α × Run → Prop} {k : Option Nat → Scm α} (r : Run)
    (hnone : ∀ r', P (k none r'))
    (hsome : ∀ scm r', r'.calls = r.calls + 1 → P (k (some scm) r')) :
    P ((openManager m >>= k) r) := by
  rw [bind_apply]
  have hcalls := openHandle_calls m.openManager r
  rcases openHandle_cases m.openManager r with ⟨r', heq, -⟩ | ⟨scm, r', heq, -⟩
  · rw [openManager, heq]
    exact hnone r'
  · rw [openManager, heq]
    exact hsome scm r' (by simpa [heq] using hcalls)

theorem service_cases {α : Type} {P : α × Run → Prop} {k : Option Nat → Scm α} (scm : Nat)
    (r : Run) (hnone : ∀ r', P (k none r'))
    (hsome : ∀ svc r', r'.calls = r.calls + 2 → P (k (some svc) r')) :
    P ((openService m scm >>= k) r) := by
  rw [bind_apply, openService, bind_apply]
  have hcalls : (openHandle m.openService (withHandle scm (fun _ => ()) r).2).2.calls =
      r.calls + 2 := openHandle_calls m.openService _
  rcases openHandle_cases m.openService (withHandle scm (fun _ => ()) r).2 with
    ⟨r', heq, -⟩ | ⟨svc, r', heq, -⟩
  · rw [heq]
    exact hnone r'
  · rw [heq]
    exact hsome svc r' (by simpa [heq] using hcalls)

end

theorem waitFor_seen (m : Manager) (wanted : State) (intervalMs : Nat) (timeoutMs : Int) (r : Run)
    (h : (waitFor m wanted intervalMs timeoutMs r).1 = .ok) :
    (waitFor m wanted intervalMs timeoutMs r).2.seen = some wanted := by
  revert h
  refine opened_cases (P := fun x : ServiceResult × Run => x.1 = .ok → x.2.seen = some wanted) r
    ?_ ?_
  · intro r' h
    cases h
  · intro scm r₁ _
    refine service_cases (P := fun x : ServiceResult × Run => x.1 = .ok → x.2.seen = some wanted)
      scm r₁ ?_ ?_
    · intro r' h
      cases h
    · intro svc r' _ h
      exact waitLoop_seen h

/-- In a run of `service_windows_stop` that begins after `calls` calls: the service was reported
as stopped, or the `ControlService` of this run was refused and the reason given, by the
`GetLastError` that comes next, was that the service is not active.  `OpenSCManager` is counted
as one call and `OpenService` as two, which gives `ControlService` its number. -/
def StopReported (m : Manager) (calls : Nat) (x : ServiceResult × Run) : Prop :=
  x.1 = .ok →
    x.2.seen = some .stopped ∨
      (m.controlStop (calls + 3) = none ∧ m.lastError (calls + 4) = .notActive)

theorem stop_reported (m : Manager) (r : Run) :
    StopReported m r.calls (serviceWindowsStop m r) := by
  refine opened_cases (P := StopReported m r.calls) r ?_ ?_
  · intro r' h
    cases h
  intro scm r₁ hcalls₁
  refine service_cases (P := StopReported m r.calls) scm r₁ ?_ ?_
  · intro r' h
    have hresult : (if m.lastError (close scm r').2.calls = .doesNotExist then
        ServiceResult.notInstalled else .error) = .ok := h
    split at hresult <;> cases hresult
  · intro svc r' hcalls h
    have hcontrol : r'.calls = r.calls + 3 := by omega
    dsimp only at h ⊢
    rw [bind_apply] at h ⊢
    have hseen : (statusCall svc m.controlStop r').2.seen =
      (statusCall svc m.controlStop r').1.or r'.seen := rfl
    have hvalue : (statusCall svc m.controlStop r').1 = m.controlStop (r.calls + 3) := by
      rw [← hcontrol]
      rfl
    cases hanswer : (statusCall svc m.controlStop r').1 with
    | none =>
      rw [hanswer] at h
      have hresult : (if m.lastError (r'.calls + 1) = .notActive then ServiceResult.ok else .error) =
        .ok := h
      rw [hcontrol] at hresult
      split at hresult
      · rename_i hactive
        exact .inr ⟨hvalue.symm.trans hanswer, hactive⟩
      · cases hresult
    | some state =>
      rw [hanswer] at h hseen
      exact .inl (stopPoll_seen hseen h)

/-- **OK is what the service manager has said.**  An operation that waits returns OK only if the
state that it waits for was the last to be reported, and so does `service_windows_stop`, unless
the answer to its own `ControlService` was that the service is not active.  The loops look at a
state right after it has been reported, and the way out closes handles only, which reports
nothing; so the state that ended the loop is still the last one. -/
theorem ok_was_reported (m : Manager) (r : Run) :
    (∀ timeoutMs, (serviceWindowsWaitForStop m timeoutMs r).1 = .ok →
      (serviceWindowsWaitForStop m timeoutMs r).2.seen = some .stopped) ∧
    (∀ timeoutMs, (serviceWindowsWaitForStart m timeoutMs r).1 = .ok →
      (serviceWindowsWaitForStart m timeoutMs r).2.seen = some .running) ∧
    ((serviceWindowsStop m r).1 = .ok → (serviceWindowsStop m r).2.seen = some .stopped ∨
      (m.controlStop (r.calls + 3) = none ∧ m.lastError (r.calls + 4) = .notActive)) :=
  ⟨fun timeoutMs => waitFor_seen m .stopped 300 timeoutMs r,
    fun timeoutMs => waitFor_seen m .running 500 timeoutMs r, stop_reported m r⟩

end Offs.ServiceControl
