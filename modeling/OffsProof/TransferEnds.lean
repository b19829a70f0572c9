import OffsProof.Client
import OffsProof.LabelledRun

/-! # The transfer loops come to an end

`_send_all` and `_recv_all` call the socket again and again.  A call that is interrupted is
made again at once.  Any other call should bring the loop nearer to its end: it transfers a
byte, it takes one from the wait that is left, or the loop returns (`Advances`).  Each byte
sets the wait back, so a loop over `n` bytes that has not returned has made at most
`n * 30001` such calls.

`_recv_all` keeps to that bound (`recvAll_waiting_le`).  `_send_all` also goes on after a call
that has sent nothing, and sets the wait back there too; every such call costs it another
30001 (`sendAll_waiting_le`), and a socket that keeps answering 0 is asked for ever
(`zero_send_spins`).

The loops are then looked at iteration by iteration (`sendIteration`, `recvIteration`): as
steps on their variables, which have a successor as long as the loop has not returned.  Every
iteration of `_recv_all` advances.  One of `_send_all` does just if it is not answered 0, and
so the loops end, and do not spin on the way, exactly on the sockets that give no such answer
before the transfer is over (`transfer_loops_never_spin_iff`).
-/
namespace Offs.CliClient
open LabelledRun (exec)

/-! ## The calls of a loop that has not returned -/

namespace Answer

/-- The call is made again at once. -/
def retried : Answer → Bool
  | .interrupted => true
  | _ => false

/-- The bytes that a call can transfer. -/
def count : Answer → Nat
  | .bytes n => n
  | _ => 0

/-- The call has not failed. -/
def succeeds : Answer → Bool
  | .bytes _ => true
  | _ => false

end Answer

/-- **What a loop of `_send_all` has used up that has not returned.**  Each byte that is left is
worth the whole wait and one call more, since sending it sets the wait back, and each answer 0 is
worth the same for the same reason.  Interrupted calls are not counted. -/
theorem sendAll_waiting_le {script : List Answer} {eagain : Nat} {data : List UInt8}
    (hbudget : eagain ≤ eagainBudget) (h : (sendAll script eagain data).status = .waiting) :
    script.countP (!·.retried) + eagain ≤
      (data.length + script.count (.bytes 0)) * (eagainBudget + 1) := by
  fun_induction sendAll script eagain data with
  | case1 => cases h
  | case2 eagain b data =>
    simp only [List.countP_nil, List.count_nil, List.length_cons, Nat.add_mul]
    omega
  | case3 n script eagain b data r ih =>
    have hrest := ih (Nat.zero_le _) h
    rw [List.length_drop, List.length_cons] at hrest
    rw [List.countP_cons_of_pos rfl, List.count_cons, List.length_cons]
    rcases Nat.eq_zero_or_pos n with rfl | hn
    · simp only [Nat.sub_zero, beq_self_eq_true, if_true, Nat.add_mul] at hrest ⊢
      omega
    · have hzero : (Answer.bytes n == .bytes 0) = false := by simpa using hn.ne'
      have hless : (data.length + 1 - n + script.count (.bytes 0)) * (eagainBudget + 1) ≤
          (data.length + script.count (.bytes 0)) * (eagainBudget + 1) :=
        Nat.mul_le_mul_right _ (by omega)
      simp only [hzero, Bool.false_eq_true, if_false, Nat.add_mul] at hrest hless ⊢
      omega
  | case4 script eagain b data ih =>
    have hrest := ih hbudget h
    rwa [List.countP_cons_of_neg (by simp [Answer.retried]), List.count_cons_of_ne (by simp)]
  | case5 => cases h
  | case6 script eagain b data hroom ih =>
    have hrest := ih (by omega) h
    rw [List.countP_cons_of_pos rfl, List.count_cons_of_ne (by simp)]
    omega
  | case7 => cases h

/-- **What a loop of `_recv_all` has used up that has not returned.**  The bound is that of
`_send_all` without the answers 0, for this loop returns when a call has received nothing. -/
theorem recvAll_waiting_le {script : List Answer} {incoming : List UInt8} {eagain need : Nat}
    (hbudget : eagain ≤ eagainBudget)
    (h : (recvAll script incoming eagain need).status = .waiting) :
    script.countP (!·.retried) + eagain ≤ need * (eagainBudget + 1) := by
  fun_induction recvAll script incoming eagain need with
  | case1 => cases h
  | case2 incoming eagain need =>
    simp only [List.countP_nil, Nat.succ_mul]
    omega
  | case3 => cases h
  | case4 n script incoming eagain need result hresult r ih =>
    have hrest := ih (Nat.zero_le _) h
    have hless : (need + 1 - result) * (eagainBudget + 1) ≤ need * (eagainBudget + 1) :=
      Nat.mul_le_mul_right _ (by omega)
    rw [List.countP_cons_of_pos rfl, Nat.succ_mul]
    omega
  | case5 script incoming eagain need ih =>
    have hrest := ih hbudget h
    rwa [List.countP_cons_of_neg (by simp [Answer.retried])]
  | case6 => cases h
  | case7 script incoming eagain need hroom ih =>
    have hrest := ih (by omega) h
    rw [List.countP_cons_of_pos rfl]
    rw [Nat.add_right_comm]
    exact hrest
  | case8 => cases h

/-! ## Sockets that answer for ever -/

/-- The first `n` answers. -/
def first (answers : Nat → Answer) (n : Nat) : List Answer := (List.range n).map answers

/-- Only finitely many answers are of the kind. -/
def FinitelyOften (kind : Answer → Prop) (answers : Nat → Answer) : Prop :=
  ∃ N, ∀ t, N ≤ t → ¬kind (answers t)

/-- `_send_all` returns. -/
def SendEnds (answers : Nat → Answer) (data : List UInt8) : Prop :=
  ∃ n, (sendAll (first answers n) 0 data).status ≠ .waiting

/-- `_recv_all` returns. -/
def RecvEnds (answers : Nat → Answer) (incoming : List UInt8) (need : Nat) : Prop :=
  ∃ n, (recvAll (first answers n) incoming 0 need).status ≠ .waiting

section First
variable {answers : Nat → Answer}

theorem first_succ (answers : Nat → Answer) (n : Nat) :
    first answers (n + 1) = first answers n ++ [answers n] := by
  simp [first, List.range_succ]

/-- What holds from some answer on holds of all but so many. -/
theorem le_countP_first {p : Answer → Bool} {N : Nat} (h : ∀ t, N ≤ t → p (answers t) = true)
    (k : Nat) : k ≤ (first answers (N + k)).countP p := by
  induction k with
  | zero => exact Nat.zero_le _
  | succ k ih =>
    rw [← Nat.add_assoc, first_succ, List.countP_append, List.countP_singleton,
      if_pos (h _ (Nat.le_add_right N k))]
    omega

/-- What does not occur from some answer on occurs at most so often. -/
theorem count_first_le {a : Answer} {N : Nat} (h : ∀ t, N ≤ t → ¬answers t = a) (n : Nat) :
    (first answers n).count a ≤ N := by
  induction n with
  | zero => exact Nat.zero_le _
  | succ n ih =>
    rw [first_succ, List.count_append]
    by_cases hn : N ≤ n
    · rw [List.count_singleton, if_neg (by simpa using h n hn)]
      exact ih
    · have hlength := List.count_le_length (a := a) (l := first answers n ++ [answers n])
      rw [List.count_append, List.length_append, first, List.length_map, List.length_range,
        List.length_singleton] at hlength
      rw [first]
      omega

end First

/-- A socket that interrupts finitely often comes to make any number of other calls. -/
theorem exists_called {answers : Nat → Answer} (h : FinitelyOften (· = .interrupted) answers) :
    ∃ N, ∀ k, k ≤ (first answers (N + k)).countP (!·.retried) := by
  obtain ⟨N, hN⟩ := h
  refine ⟨N, le_countP_first fun t ht => ?_⟩
  have hcalled := hN t ht
  cases hanswer : answers t <;> simp_all [Answer.retried]

/-- **`_recv_all` returns**, whatever the socket answers. -/
theorem recvEnds {answers : Nat → Answer} (h : FinitelyOften (· = .interrupted) answers)
    (incoming : List UInt8) (need : Nat) : RecvEnds answers incoming need := by
  obtain ⟨N, hcalled⟩ := exists_called h
  refine ⟨N + (need * (eagainBudget + 1) + 1), fun hwaiting => ?_⟩
  have hused := recvAll_waiting_le (Nat.zero_le _) hwaiting
  have hmade := hcalled (need * (eagainBudget + 1) + 1)
  omega

/-- **`_send_all` returns** if the socket sends nothing only finitely often. -/
theorem sendEnds_of_finitelyOften {answers : Nat → Answer}
    (h : FinitelyOften (· = .interrupted) answers) (hzero : FinitelyOften (· = .bytes 0) answers)
    (data : List UInt8) : SendEnds answers data := by
  obtain ⟨N, hcalled⟩ := exists_called h
  obtain ⟨Z, hZ⟩ := hzero
  refine ⟨N + ((data.length + Z) * (eagainBudget + 1) + 1), fun hwaiting => ?_⟩
  have hused := sendAll_waiting_le (Nat.zero_le _) hwaiting
  have hmade := hcalled ((data.length + Z) * (eagainBudget + 1) + 1)
  have hzeros := count_first_le hZ (N + ((data.length + Z) * (eagainBudget + 1) + 1))
  have hbound := Nat.mul_le_mul_right (eagainBudget + 1) (Nat.add_le_add_left hzeros data.length)
  omega

/-! ## What else ends `_send_all` -/

/-- More `EAGAIN` than the wait is long, without a call that succeeds between them. -/
def LongWait (script : List Answer) : Prop :=
  ∃ before block after, script = before ++ block ++ after ∧
    (∀ a ∈ block, a.succeeds = false) ∧ eagainBudget < block.count .again

/-- **The answers end a transfer of `len` bytes**: with an error, by transferring all of them, or
by letting it wait too long.  This is said of the answers alone, by what they add up to, and not
of what a loop makes of them. -/
inductive Settles (len : Nat) (script : List Answer) : Prop
  | error (h : .error ∈ script)
  | whole (h : len ≤ (script.map Answer.count).sum)
  | tired (h : LongWait script)

theorem Settles.cons {len len' : Nat} {script : List Answer} {a : Answer}
    (h : Settles len script) (hlen : len' ≤ a.count + len) : Settles len' (a :: script) := by
  rcases h with herror | hwhole | ⟨before, block, after, rfl, hblock, hlong⟩
  · exact .error (List.mem_cons_of_mem _ herror)
  · refine .whole ?_
    rw [List.map_cons, List.sum_cons]
    omega
  · exact .tired ⟨a :: before, block, after, rfl, hblock, hlong⟩

/-- The wait of a loop runs out in the next calls, none of which succeeds. -/
def RunsOut (eagain : Nat) (script : List Answer) : Prop :=
  ∃ block after, script = block ++ after ∧ (∀ a ∈ block, a.succeeds = false) ∧
    eagainBudget < eagain + block.count .again

theorem RunsOut.cons {eagain : Nat} {script : List Answer} {a : Answer} (ha : a.succeeds = false)
    (h : RunsOut (eagain + if a = .again then 1 else 0) script) : RunsOut eagain (a :: script) := by
  obtain ⟨block, after, rfl, hblock, hlong⟩ := h
  refine ⟨a :: block, after, rfl, List.forall_mem_cons.mpr ⟨ha, hblock⟩, ?_⟩
  rw [List.count_cons]
  simp only [beq_iff_eq]
  omega

/-- A loop that has returned was made to by the answers. -/
theorem sendAll_returned {script : List Answer} {eagain : Nat} {data : List UInt8}
    (h : (sendAll script eagain data).status ≠ .waiting) :
    Settles data.length script ∨ RunsOut eagain script := by
  fun_induction sendAll script eagain data with
  | case1 => exact .inl (.whole (Nat.zero_le _))
  | case2 => exact absurd rfl h
  | case3 n script eagain b data r ih =>
    refine .inl ?_
    rcases ih h with hsettles | ⟨block, after, rfl, hblock, hlong⟩
    · refine hsettles.cons ?_
      rw [List.length_drop, Answer.count]
      omega
    · exact .tired ⟨[.bytes n], block, after, rfl, hblock, by omega⟩
  | case4 script eagain b data ih =>
    rcases ih h with hsettles | hwait
    · exact .inl (hsettles.cons (by simp [Answer.count]))
    · exact .inr (.cons rfl hwait)
  | case5 script eagain b data hspent =>
    refine .inr ⟨[.again], script, rfl, by simp [Answer.succeeds], ?_⟩
    rw [List.count_singleton_self]
    omega
  | case6 script eagain b data hroom ih =>
    rcases ih h with hsettles | hwait
    · exact .inl (hsettles.cons (by simp [Answer.count]))
    · exact .inr (.cons rfl hwait)
  | case7 => exact .inl (.error List.mem_cons_self)

/-- A loop that has not returned has a state after each part of its answers. -/
theorem sendAll_waiting_append {a b : List Answer} {eagain : Nat} {data : List UInt8}
    (hbudget : eagain ≤ eagainBudget) (h : (sendAll (a ++ b) eagain data).status = .waiting) :
    ∃ eagain' data', eagain' ≤ eagainBudget ∧ (sendAll b eagain' data').status = .waiting := by
  induction a generalizing eagain data with
  | nil => exact ⟨eagain, data, hbudget, h⟩
  | cons answer a ih =>
    rcases data with _ | ⟨byte, data⟩
    · cases answer <;> cases h
    · cases answer with
      | bytes n => exact ih (Nat.zero_le _) h
      | interrupted => exact ih hbudget h
      | again =>
        rw [List.cons_append, sendAll] at h
        split at h
        · cases h
        · exact ih (by omega) h
      | error => cases h

/-- A loop that has not returned has not used up its wait. -/
theorem not_runsOut_of_waiting {script : List Answer} {eagain : Nat} {data : List UInt8}
    (hbudget : eagain ≤ eagainBudget) (h : (sendAll script eagain data).status = .waiting) :
    ¬RunsOut eagain script := by
  rintro ⟨block, after, rfl, hblock, hlong⟩
  induction block generalizing eagain data with
  | nil =>
    rw [List.count_nil] at hlong
    omega
  | cons answer block ih =>
    obtain ⟨hanswer, hrest⟩ := List.forall_mem_cons.mp hblock
    rcases data with _ | ⟨byte, data⟩
    · cases answer <;> cases h
    · cases answer with
      | bytes n => cases hanswer
      | interrupted =>
        rw [List.count_cons_of_ne (by simp)] at hlong
        exact ih hbudget h hrest hlong
      | again =>
        rw [List.cons_append, sendAll] at h
        rw [List.count_cons_self] at hlong
        split at h
        · cases h
        · exact ih (by omega) h hrest (by omega)
      | error => cases h

/-- A loop that has not returned has bytes left. -/
theorem sum_lt_of_waiting {script : List Answer} {eagain : Nat} {data : List UInt8}
    (h : (sendAll script eagain data).status = .waiting) :
    (script.map Answer.count).sum < data.length := by
  fun_induction sendAll script eagain data with
  | case1 => cases h
  | case2 => simp
  | case3 n script eagain b data r ih =>
    have hrest := ih h
    rw [List.length_drop] at hrest
    rw [List.map_cons, List.sum_cons, Answer.count]
    omega
  | case4 script eagain b data ih | case6 script eagain b data _ ih =>
    simpa [Answer.count] using ih h
  | case5 => cases h
  | case7 => cases h

/-- A loop that has not returned has not been made to. -/
theorem not_settles_of_waiting {script : List Answer} {data : List UInt8}
    (h : (sendAll script 0 data).status = .waiting) : ¬Settles data.length script := by
  rintro (herror | hwhole | ⟨before, block, after, rfl, hblock, hlong⟩)
  · obtain ⟨before, after, rfl⟩ := List.append_of_mem herror
    obtain ⟨eagain, data', -, hrest⟩ := sendAll_waiting_append (Nat.zero_le _) h
    rcases data' with _ | ⟨byte, data'⟩ <;> cases hrest
  · exact absurd hwhole (Nat.not_le_of_lt (sum_lt_of_waiting h))
  · rw [List.append_assoc] at h
    obtain ⟨eagain, data', hbudget, hrest⟩ := sendAll_waiting_append (Nat.zero_le _) h
    exact not_runsOut_of_waiting hbudget hrest ⟨block, after, rfl, hblock, by omega⟩

/-- **When `_send_all` returns**: when the answers make it.  A loop that has returned has met an
error, sent everything or run out of its wait, and each of these can be told from the answers it
has had (`sendAll_returned`); conversely a loop that still goes on has met none of them
(`not_settles_of_waiting`). -/
theorem sendEnds_iff_settles {answers : Nat → Answer} {data : List UInt8} :
    SendEnds answers data ↔ ∃ n, Settles data.length (first answers n) := by
  constructor
  · rintro ⟨n, hended⟩
    refine ⟨n, ?_⟩
    rcases sendAll_returned hended with hsettles | ⟨block, after, hscript, hblock, hlong⟩
    · exact hsettles
    · exact .tired ⟨[], block, after, hscript, hblock, by omega⟩
  · rintro ⟨n, hsettles⟩
    exact ⟨n, fun hwaiting => not_settles_of_waiting hwaiting hsettles⟩

/-- When the transfer loops end, on sockets that interrupt finitely often: just if the socket
sends nothing only finitely often, or its answers end the transfer before. -/
theorem transfer_loops_end_iff {sends receives : Nat → Answer}
    (hsends : FinitelyOften (· = .interrupted) sends)
    (hreceives : FinitelyOften (· = .interrupted) receives) (data incoming : List UInt8)
    (need : Nat) :
    (SendEnds sends data ∧ RecvEnds receives incoming need) ↔
      FinitelyOften (· = .bytes 0) sends ∨ ∃ n, Settles data.length (first sends n) := by
  constructor
  · rintro ⟨hsend, -⟩
    exact .inr (sendEnds_iff_settles.mp hsend)
  · intro hcondition
    refine ⟨?_, recvEnds hreceives incoming need⟩
    rcases hcondition with hzero | hsettles
    · exact sendEnds_of_finitelyOften hsends hzero data
    · exact sendEnds_iff_settles.mpr hsettles

/-! ## Iteration by iteration -/

/-- The variables of `_send_all`: `eagain_ms`, and the data still to send. -/
structure Sending where
  eagain : Nat
  data : List UInt8
  deriving DecidableEq, Repr

/-- The variables of `_recv_all`: `eagain_ms`, the bytes still needed, and those still to
come. -/
structure Receiving where
  eagain : Nat
  need : Nat
  incoming : List UInt8
  deriving DecidableEq, Repr

/-- An iteration of `_send_all`, with what its call answers; `none` when the loop returns in it,
or has come to its end before. -/
def sendIteration (v : Sending) (answer : Answer) : Option Sending :=
  if v.data = [] then none
  else
    match answer with
    | .bytes n => some ⟨0, v.data.drop n⟩
    | .interrupted => some v
    | .again => if v.eagain ≥ eagainBudget then none else some { v with eagain := v.eagain + 1 }
    | .error => none

/-- An iteration of `_recv_all`. -/
def recvIteration (v : Receiving) (answer : Answer) : Option Receiving :=
  if v.need = 0 then none
  else
    match answer with
    | .bytes n =>
      let result := min n (min v.need v.incoming.length)
      if result = 0 then none else some ⟨0, v.need - result, v.incoming.drop result⟩
    | .interrupted => some v
    | .again => if v.eagain ≥ eagainBudget then none else some { v with eagain := v.eagain + 1 }
    | .error => none

/-- What counts in a loop: the wait that it has used up, and the number of bytes left. -/
structure Progress where
  eagain : Nat
  left : Nat
  deriving DecidableEq, Repr

def Sending.progress (v : Sending) : Progress := ⟨v.eagain, v.data.length⟩

def Receiving.progress (v : Receiving) : Progress := ⟨v.eagain, v.need⟩

/-- **What an iteration has to achieve** that was not interrupted: the loop returns, or a byte
has been transferred, or one unit of the wait has been used up and nothing been set back. -/
def Advances (before : Progress) (after : Option Progress) : Prop :=
  ∀ p ∈ after, p.left < before.left ∨
    (p.left = before.left ∧ p.eagain = before.eagain + 1 ∧ p.eagain ≤ eagainBudget)

/-- **Every iteration of `_send_all` advances** that is not interrupted, and one that is changes
nothing.  The variables that the loop has after `n` answers are those of its next call, if there
is still something to send. -/
def SendAdvances (answers : Nat → Answer) (data : List UInt8) : Prop :=
  ∀ n v, exec sendIteration ⟨0, data⟩ (first answers n) = some v → v.data ≠ [] →
    if answers n = .interrupted then sendIteration v (answers n) = some v
    else Advances v.progress ((sendIteration v (answers n)).map Sending.progress)

/-- The same for `_recv_all`. -/
def RecvAdvances (answers : Nat → Answer) (incoming : List UInt8) (need : Nat) : Prop :=
  ∀ n v, exec recvIteration ⟨0, need, incoming⟩ (first answers n) = some v → v.need ≠ 0 →
    if answers n = .interrupted then recvIteration v (answers n) = some v
    else Advances v.progress ((recvIteration v (answers n)).map Receiving.progress)

/-- The iterations of `_send_all` are those of the loop: it has not returned just if they have
led to a next call. -/
theorem sendAll_waiting_iff {script : List Answer} {v : Sending} :
    (sendAll script v.eagain v.data).status = .waiting ↔
      ∃ w, exec sendIteration v script = some w ∧ w.data ≠ [] := by
  induction script generalizing v with
  | nil =>
    obtain ⟨eagain, data⟩ := v
    cases data with
    | nil => simp [sendAll]
    | cons b data => simp [sendAll]
  | cons answer script ih =>
    obtain ⟨eagain, data⟩ := v
    cases data with
    | nil => cases answer <;> simp [sendAll, exec, sendIteration]
    | cons b data =>
      cases answer with
      | bytes n => simpa [sendAll, exec, sendIteration] using ih (v := ⟨0, (b :: data).drop n⟩)
      | interrupted => simpa [sendAll, exec, sendIteration] using ih (v := ⟨eagain, b :: data⟩)
      | again =>
        by_cases hspent : eagain ≥ eagainBudget
        · simp [sendAll, exec, sendIteration, hspent]
        · simpa [sendAll, exec, sendIteration, hspent] using ih (v := ⟨eagain + 1, b :: data⟩)
      | error => simp [sendAll, exec, sendIteration]

/-- **And `_recv_all` those of its loop.** -/
theorem recvAll_waiting_iff {script : List Answer} {v : Receiving} :
    (recvAll script v.incoming v.eagain v.need).status = .waiting ↔
      ∃ w, exec recvIteration v script = some w ∧ w.need ≠ 0 := by
  induction script generalizing v with
  | nil =>
    obtain ⟨eagain, need, incoming⟩ := v
    cases need with
    | zero => simp [recvAll]
    | succ need => simp [recvAll]
  | cons answer script ih =>
    obtain ⟨eagain, need, incoming⟩ := v
    cases need with
    | zero => cases answer <;> simp [recvAll, exec, recvIteration]
    | succ need =>
      cases answer with
      | bytes n =>
        by_cases hresult : min n (min (need + 1) incoming.length) = 0
        · simp [recvAll, exec, recvIteration, hresult]
        · simpa [recvAll, exec, recvIteration, hresult] using
            ih (v := ⟨0, _, incoming.drop (min n (min (need + 1) incoming.length))⟩)
      | interrupted =>
        simpa [recvAll, exec, recvIteration] using ih (v := ⟨eagain, need + 1, incoming⟩)
      | again =>
        by_cases hspent : eagain ≥ eagainBudget
        · simp [recvAll, exec, recvIteration, hspent]
        · simpa [recvAll, exec, recvIteration, hspent] using
            ih (v := ⟨eagain + 1, need + 1, incoming⟩)
      | error => simp [recvAll, exec, recvIteration]

/-- **An iteration of `_send_all` advances** just if its call has not answered 0.  A call that
sends something leaves less to send, one that is told to wait uses up a unit of the wait or makes
the loop return, and an error makes it return as well.  An answer 0 leaves as much to send as
before, with the wait set back. -/
theorem sendIteration_advances_iff {v : Sending} {answer : Answer} (hdata : v.data ≠ [])
    (hcalled : answer ≠ .interrupted) :
    Advances v.progress ((sendIteration v answer).map Sending.progress) ↔ answer ≠ .bytes 0 := by
  have hleft : 0 < v.data.length := List.length_pos_iff.mpr hdata
  cases answer with
  | bytes n =>
    simp only [sendIteration, if_neg hdata, Option.map_some, Advances, Option.mem_some_iff,
      forall_eq', Sending.progress, List.length_drop, ne_eq, Answer.bytes.injEq]
    omega
  | interrupted => exact absurd rfl hcalled
  | again =>
    by_cases hspent : v.eagain ≥ eagainBudget
    · simp [sendIteration, hdata, hspent, Advances]
    · have hnext : sendIteration v .again = some { v with eagain := v.eagain + 1 } := by
        simp [sendIteration, hdata, hspent]
      refine iff_of_true ?_ (by simp)
      rw [hnext]
      rintro p ⟨⟩
      exact .inr ⟨rfl, rfl, Nat.lt_of_not_ge hspent⟩
  | error => simp [sendIteration, Advances]

/-- **An iteration of `_recv_all` advances** whatever its call has answered. -/
theorem recvIteration_advances {v : Receiving} {answer : Answer} (hneed : v.need ≠ 0)
    (hcalled : answer ≠ .interrupted) :
    Advances v.progress ((recvIteration v answer).map Receiving.progress) := by
  intro p hp
  obtain ⟨w, hw, rfl⟩ := Option.map_eq_some_iff.mp hp
  simp only [recvIteration, if_neg hneed] at hw
  cases answer with
  | bytes n =>
    obtain ⟨hresult, heq⟩ := Option.ite_none_left_eq_some.mp hw
    cases heq
    refine .inl ?_
    simp only [Receiving.progress]
    omega
  | interrupted => exact absurd rfl hcalled
  | again =>
    obtain ⟨hspent, heq⟩ := Option.ite_none_left_eq_some.mp hw
    cases heq
    refine .inr ⟨rfl, rfl, ?_⟩
    simp only [Receiving.progress]
    omega
  | error => cases hw

/-- `_recv_all` does not spin. -/
theorem recvAdvances (answers : Nat → Answer) (incoming : List UInt8) (need : Nat) :
    RecvAdvances answers incoming need := by
  intro n v _ hneed
  split
  · rename_i hinterrupted
    simp [recvIteration, hneed, hinterrupted]
  · rename_i hcalled
    exact recvIteration_advances hneed hcalled

/-- `_send_all` spins just on an answer 0 that comes before the transfer is over. -/
theorem sendAdvances_iff {answers : Nat → Answer} {data : List UInt8} :
    SendAdvances answers data ↔
      ∀ n, answers n = .bytes 0 → Settles data.length (first answers n) := by
  constructor
  · intro hadvances n hzero
    by_contra hunsettled
    have hwaiting : (sendAll (first answers n) 0 data).status = .waiting := by
      by_contra hended
      rcases sendAll_returned hended with hsettles | ⟨block, after, hscript, hblock, hlong⟩
      · exact hunsettled hsettles
      · exact hunsettled (.tired ⟨[], block, after, hscript, hblock, by omega⟩)
    obtain ⟨v, hv, hdata⟩ := (sendAll_waiting_iff (v := ⟨0, data⟩)).mp hwaiting
    have hcalled : answers n ≠ .interrupted := by simp [hzero]
    have hiteration := hadvances n v hv hdata
    rw [if_neg hcalled] at hiteration
    exact (sendIteration_advances_iff hdata hcalled).mp hiteration hzero
  · intro hsettled n v hv hdata
    split
    · rename_i hinterrupted
      simp [sendIteration, hdata, hinterrupted]
    · rename_i hcalled
      refine (sendIteration_advances_iff hdata hcalled).mpr fun hzero => ?_
      -- The loop would have returned by then.
      have hwaiting := (sendAll_waiting_iff (v := ⟨0, data⟩)).mpr ⟨v, hv, hdata⟩
      exact not_settles_of_waiting hwaiting (hsettled n hzero)

/-- **When the transfer loops cannot spin**, on sockets that interrupt finitely often.  They
return, and on the way every iteration that is not interrupted transfers a byte, uses up a unit
of the wait that only a transfer sets back, or returns: just if `platform_socket_send` gives no
0 before its answers have ended the transfer. -/
theorem transfer_loops_never_spin_iff {sends receives : Nat → Answer}
    (hsends : FinitelyOften (· = .interrupted) sends)
    (hreceives : FinitelyOften (· = .interrupted) receives) (data incoming : List UInt8)
    (need : Nat) :
    ((SendEnds sends data ∧ RecvEnds receives incoming need) ∧
      SendAdvances sends data ∧ RecvAdvances receives incoming need) ↔
      ∀ n, sends n = .bytes 0 → Settles data.length (first sends n) := by
  rw [transfer_loops_end_iff hsends hreceives, sendAdvances_iff]
  constructor
  · rintro ⟨-, hsettled, -⟩
    exact hsettled
  · intro hsettled
    refine ⟨?_, hsettled, recvAdvances receives incoming need⟩
    by_cases hzero : ∃ n, sends n = .bytes 0
    · obtain ⟨n, hn⟩ := hzero
      exact .inr ⟨n, hsettled n hn⟩
    · exact .inl ⟨0, fun n _ hn => hzero ⟨n, hn⟩⟩

/-- A socket that sends a byte at a time. -/
theorem transfer_loops_never_spin_iff_bytewise :
    SendAdvances (fun _ => .bytes 1) [1, 2] ∧ RecvEnds (fun _ => .bytes 1) [3, 4] 2 := by
  have hinterrupted : FinitelyOften (· = .interrupted) fun _ => .bytes 1 :=
    ⟨0, fun _ _ h => by cases h⟩
  have hnever := (transfer_loops_never_spin_iff hinterrupted hinterrupted [1, 2] [3, 4] 2).mpr
    fun _ h => by cases h
  exact ⟨hnever.2.1, hnever.1.2⟩

/-- **A socket that answers 0 is asked for ever.**  No number of such answers makes the loop
return, by induction on them: each one leaves the byte to be sent, and the wait at 0. -/
theorem zero_send_spins :
    FinitelyOften (· = .interrupted) (fun _ => .bytes 0) ∧ ¬SendEnds (fun _ => .bytes 0) [1] := by
  refine ⟨⟨0, fun _ _ => nofun⟩, ?_⟩
  rintro ⟨n, hended⟩
  refine hended ?_
  have hspin : ∀ script : List Answer, (∀ a ∈ script, a = .bytes 0) → ∀ eagain,
      (sendAll script eagain [1]).status = .waiting := by
    intro script hscript
    induction script with
    | nil => exact fun _ => rfl
    | cons a script ih =>
      obtain ⟨rfl, hrest⟩ := List.forall_mem_cons.mp hscript
      exact fun _ => ih hrest 0
  refine hspin _ (fun a ha => ?_) 0
  obtain ⟨t, -, rfl⟩ := List.mem_map.mp ha
  rfl

end Offs.CliClient
