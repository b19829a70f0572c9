import OffsProof.BigEndian

/-! # The CLI's connection to the daemon

`client.c`: frames go out through `_send_all` and come in through `_recv_all`,
two loops that call the socket until a given number of bytes has passed.  One
call of the socket answers with some of the bytes, with `EINTR`, with
`EAGAIN`, or with an error (`Answer`); a connection carries the answers its
coming calls will get, so a statement about every fragmentation is a statement
about every list of answers.  A list that ends early leaves the loop waiting.

CBOR and the stream framer belong to liboffs and are a parameter (`Codec`).

The loops are specified once.  `_send_all` hands over a prefix of its data, and
all of it when it returns 0 (`sendAll_prefix`, `sendAll_done`).  `_recv_all`
returns 0 exactly when the answers let `need` bytes through in time
(`readsThrough`), and then it has taken exactly the next `need` bytes of the
stream (`recvAll_done`, `recvAll_eq`).
-/
namespace Offs.CliClient

/-- What one call of `platform_socket_send` or `platform_socket_recv` answers:
`bytes n`, up to `n` of the bytes offered or asked for (a receive that gives none
means the peer has closed); a negative result with `errno` `EINTR`, `EAGAIN`
(or `EWOULDBLOCK`), or anything else. -/
inductive Answer
  | bytes (n : Nat)
  | interrupted
  | again
  | error
  deriving DecidableEq, Repr

/-- How a transfer loop ends: it returns 0, it returns -1, or the socket has not
answered yet. -/
inductive Status
  | done
  | failed
  | waiting
  deriving DecidableEq, Repr

/-- `CLI_EAGAIN_BUDGET_MS`, in units of `CLI_EAGAIN_RETRY_MS`. -/
def eagainBudget : Nat := 30000

/-- `MAX_RESPONSE_SIZE` -/
def maxResponseSize : Nat := 16 * 1024 * 1024

/-- liboffs' `STREAM_FRAMER_MAX_FRAME_SIZE`. -/
def maxFrameSize : Nat := 2 * 1024 * 1024

/-! ## The transfer loops -/

/-- The outcome of `_send_all`: the bytes the socket accepted, and the answers
left for later calls. -/
structure Sent where
  status : Status
  accepted : List UInt8
  script : List Answer
  deriving DecidableEq, Repr

/-- `_send_all`, with the data still to send and the wait used up so far. -/
def sendAll : List Answer → Nat → List UInt8 → Sent
  | script, _, [] => ⟨.done, [], script⟩
  | [], _, _ :: _ => ⟨.waiting, [], []⟩
  | .bytes n :: script, _, b :: data =>
    let r := sendAll script 0 ((b :: data).drop n)
    { r with accepted := (b :: data).take n ++ r.accepted }
  | .interrupted :: script, eagain, b :: data => sendAll script eagain (b :: data)
  | .again :: script, eagain, b :: data =>
    if eagain ≥ eagainBudget then ⟨.failed, [], script⟩
    else sendAll script (eagain + 1) (b :: data)
  | .error :: script, _, _ :: _ => ⟨.failed, [], script⟩

/-- The outcome of `_recv_all`: the bytes it took, the bytes it left in the
stream, and the answers left for later calls. -/
structure Received where
  status : Status
  data : List UInt8
  incoming : List UInt8
  script : List Answer
  deriving DecidableEq, Repr

/-- `_recv_all`, with the bytes still to come, the wait used up so far and the
number of bytes still needed. -/
def recvAll : List Answer → List UInt8 → Nat → Nat → Received
  | script, incoming, _, 0 => ⟨.done, [], incoming, script⟩
  | [], incoming, _, _ + 1 => ⟨.waiting, [], incoming, []⟩
  | .bytes n :: script, incoming, _, need + 1 =>
    let result := min n (min (need + 1) incoming.length)
    -- No byte means that the peer has closed.
    if result = 0 then ⟨.failed, [], incoming, script⟩
    else
      let r := recvAll script (incoming.drop result) 0 (need + 1 - result)
      { r with data := incoming.take result ++ r.data }
  | .interrupted :: script, incoming, eagain, need + 1 => recvAll script incoming eagain (need + 1)
  | .again :: script, incoming, eagain, need + 1 =>
    if eagain ≥ eagainBudget then ⟨.failed, [], incoming, script⟩
    else recvAll script incoming (eagain + 1) (need + 1)
  | .error :: script, incoming, _, _ + 1 => ⟨.failed, [], incoming, script⟩

/-- Whether the answers let `need` bytes through before the wait runs out, and
then the answers left. -/
def readsThrough : List Answer → Nat → Nat → Option (List Answer)
  | script, _, 0 => some script
  | [], _, _ + 1 => none
  | .bytes n :: script, _, need + 1 =>
    if n = 0 then none else readsThrough script 0 (need + 1 - n)
  | .interrupted :: script, eagain, need + 1 => readsThrough script eagain (need + 1)
  | .again :: script, eagain, need + 1 =>
    if eagain ≥ eagainBudget then none else readsThrough script (eagain + 1) (need + 1)
  | .error :: _, _, _ + 1 => none

/-- No byte is skipped or sent twice, however the loop ends. -/
theorem sendAll_prefix (script : List Answer) (eagain : Nat) (data : List UInt8) :
    (sendAll script eagain data).accepted <+: data := by
  fun_induction sendAll script eagain data with
  | case1 | case2 => exact List.nil_prefix
  | case3 n script _ b data r ih =>
    obtain ⟨tail, htail⟩ := ih
    exact ⟨tail, by rw [List.append_assoc, htail, List.take_append_drop]⟩
  | case4 _ _ _ _ ih => exact ih
  | case5 => exact List.nil_prefix
  | case6 _ _ _ _ _ ih => exact ih
  | case7 => exact List.nil_prefix

/-- **When `_send_all` returns 0 the socket has accepted exactly the data.** -/
theorem sendAll_done {script : List Answer} {eagain : Nat} {data : List UInt8}
    (h : (sendAll script eagain data).status = .done) :
    (sendAll script eagain data).accepted = data := by
  fun_induction sendAll script eagain data with
  | case1 => rfl
  | case2 => cases h
  | case3 n script _ b data r ih =>
    show (b :: data).take n ++ r.accepted = b :: data
    rw [ih h, List.take_append_drop]
  | case4 _ _ _ _ ih => exact ih h
  | case5 => cases h
  | case6 _ _ _ _ _ ih => exact ih h
  | case7 => cases h

/-- A loop whose data the socket has accepted whole returns 0. -/
theorem sendAll_whole {script : List Answer} {eagain : Nat} {data : List UInt8}
    (h : (sendAll script eagain data).accepted = data) :
    (sendAll script eagain data).status = .done := by
  fun_induction sendAll script eagain data with
  | case1 => rfl
  | case2 => cases h
  | case3 n script _ b data r ih =>
    have h : (b :: data).take n ++ r.accepted = b :: data := h
    have hrest : (b :: data).take n ++ r.accepted = (b :: data).take n ++ (b :: data).drop n := by
      rw [List.take_append_drop]
      exact h
    exact ih (List.append_cancel_left hrest)
  | case4 _ _ _ _ ih => exact ih h
  | case5 => cases h
  | case6 _ _ _ _ _ ih => exact ih h
  | case7 => cases h

/-- **What `_recv_all` takes when it returns 0**: exactly the next `need` bytes, and
the answers let them through in time. -/
theorem recvAll_done {script : List Answer} {incoming : List UInt8} {eagain need : Nat}
    (h : (recvAll script incoming eagain need).status = .done) :
    need ≤ incoming.length ∧ (recvAll script incoming eagain need).data = incoming.take need ∧
      (recvAll script incoming eagain need).incoming = incoming.drop need ∧
      readsThrough script eagain need = some (recvAll script incoming eagain need).script := by
  fun_induction recvAll script incoming eagain need with
  | case1 => simp [readsThrough]
  | case2 => cases h
  | case3 => cases h
  | case4 n script incoming _ need result hresult r ih =>
    obtain ⟨hle, hdata, hrest, hscript⟩ := ih h
    have hsplit : need + 1 = result + (need + 1 - result) := by omega
    rw [List.length_drop] at hle
    refine ⟨by omega, ?_, ?_, ?_⟩
    · show incoming.take result ++ r.data = incoming.take (need + 1)
      rw [hdata, hsplit, List.take_add, ← hsplit]
    · show r.incoming = incoming.drop (need + 1)
      rw [hrest, List.drop_drop, ← hsplit]
    · show readsThrough (.bytes n :: script) _ (need + 1) = some r.script
      have hn : n ≠ 0 := by omega
      have hneed : need + 1 - n = need + 1 - result := by omega
      simp only [readsThrough, if_neg hn, hneed]
      exact hscript
  | case5 _ _ _ _ ih => simpa [readsThrough] using ih h
  | case6 => cases h
  | case7 script incoming eagain need hbudget ih => simpa [readsThrough, hbudget] using ih h
  | case8 => cases h

/-- **When `_recv_all` returns 0**: the stream holds the bytes and the answers let
them through in time. -/
theorem recvAll_eq {script script' : List Answer} (incoming : List UInt8) {eagain need : Nat}
    (hlen : need ≤ incoming.length) (h : readsThrough script eagain need = some script') :
    recvAll script incoming eagain need =
      ⟨.done, incoming.take need, incoming.drop need, script'⟩ := by
  fun_induction recvAll script incoming eagain need with
  | case1 => simpa [readsThrough] using h
  | case2 => cases h
  | case3 n script incoming _ need result hresult =>
    have : n = 0 := by omega
    simp [readsThrough, this] at h
  | case4 n script incoming _ need result hresult r ih =>
    have hn : n ≠ 0 := by omega
    have hsplit : need + 1 = result + (need + 1 - result) := by omega
    have hrest : need + 1 - n = need + 1 - result := by omega
    simp only [readsThrough, if_neg hn, hrest] at h
    have hr : r = ⟨.done, (incoming.drop result).take (need + 1 - result),
        (incoming.drop result).drop (need + 1 - result), script'⟩ :=
      ih (by rw [List.length_drop]; omega) h
    rw [hr]
    simp only [Received.mk.injEq, true_and, and_true]
    refine ⟨?_, by rw [List.drop_drop, ← hsplit]⟩
    calc incoming.take result ++ (incoming.drop result).take (need + 1 - result)
        = incoming.take (result + (need + 1 - result)) := List.take_add.symm
      _ = incoming.take (need + 1) := by rw [← hsplit]
  | case5 _ _ _ _ ih => exact ih hlen (by simpa [readsThrough] using h)
  | case6 _ _ _ _ hbudget => simp [readsThrough, hbudget] at h
  | case7 _ _ _ _ hbudget ih => exact ih hlen (by simpa [readsThrough, hbudget] using h)
  | case8 => cases h

/-! ## Frames -/

variable {Item : Type}

/-- The share of liboffs and libcbor in a frame. -/
structure Codec (Item : Type) where
  /-- `cbor_serialize_alloc`, `none` for a `NULL` buffer. -/
  serialize : Item → Option (List UInt8)
  /-- `stream_frame_encode`, `none` for `NULL`. -/
  encode : List UInt8 → Option (List UInt8)
  /-- `cbor_load`, `none` unless it gives an item without an error. -/
  load : List UInt8 → Option Item

/-- A 4-byte big-endian length followed by the payload. -/
def frame (payload : List UInt8) : List UInt8 := BigEndian.bytes payload.length ++ payload

/-- What the client relies on: the framer prefixes the length of a payload up to its cap and
refuses a longer one, and loading inverts serialising.  That not every item can be serialised is
allowed, and so is that bytes load to an item that nobody has serialised. -/
structure Codec.Lawful (c : Codec Item) : Prop where
  encode_eq : ∀ payload, payload ≠ [] → payload.length ≤ maxFrameSize →
    c.encode payload = some (frame payload)
  encode_cap : ∀ payload, maxFrameSize < payload.length → c.encode payload = none
  load_serialize : ∀ x payload, c.serialize x = some payload → c.load payload = some x

/-- `cli_client_t` together with its socket: the answers the coming calls will get,
the bytes the peer has sent and the client has not read, and the bytes the socket
has accepted so far. -/
structure Client where
  connected : Bool
  sends : List Answer
  receives : List Answer
  incoming : List UInt8
  accepted : List UInt8
  deriving DecidableEq, Repr

/-- Why `cli_client_send_frame` returns -1: no connection, or `errno` is `ENOMEM`,
`EMSGSIZE`, or what the socket left. -/
inductive SendError
  | disconnected
  | noMemory
  | messageSize
  | socket
  deriving DecidableEq, Repr

/-- `cli_client_send_frame`; `none` while the socket keeps it waiting. -/
def sendFrame (c : Codec Item) (k : Client) (x : Item) : Option (Except SendError Unit × Client) :=
  if ¬ k.connected then some (.error .disconnected, k)
  else
    match c.serialize x with
    | none | some [] => some (.error .noMemory, k)
    | some (b :: payload) =>
      match c.encode (b :: payload) with
      | none | some [] => some (.error .messageSize, k)
      | some (b' :: framed) =>
        let r := sendAll k.sends 0 (b' :: framed)
        let k' := { k with sends := r.script, accepted := k.accepted ++ r.accepted }
        match r.status with
        | .done => some (.ok (), k')
        | .failed => some (.error .socket, k')
        | .waiting => none

/-- `response_len`, from the four bytes of `length_buf`. -/
def responseLength : List UInt8 → Nat
  | [b0, b1, b2, b3] => (BigEndian.word b0 b1 b2 b3).toNat
  | _ => 0

/-- `cli_client_recv_frame`: `some none` is a `NULL` result, `none` means the socket
keeps it waiting.  A failed call leaves the connection open, at whatever offset the
stream then has. -/
def recvFrame (c : Codec Item) (k : Client) : Option (Option Item × Client) :=
  if ¬ k.connected then some (none, k)
  else
    let head := recvAll k.receives k.incoming 0 4
    let k := { k with receives := head.script, incoming := head.incoming }
    match head.status with
    | .waiting => none
    | .failed => some (none, k)
    | .done =>
      let length := responseLength head.data
      if length = 0 ∨ length > maxResponseSize then some (none, k)
      else
        let body := recvAll k.receives k.incoming 0 length
        let k := { k with receives := body.script, incoming := body.incoming }
        match body.status with
        | .waiting => none
        | .failed => some (none, k)
        | .done => some (c.load body.data, k)

/-- Send the items, one call of `cli_client_send_frame` after the other. -/
def sendFrames (c : Codec Item) : List Item → Client → Option (List (Except SendError Unit) × Client)
  | [], k => some ([], k)
  | x :: xs, k =>
    (sendFrame c k x).bind fun (r, k) => (sendFrames c xs k).map fun (rs, k) => (r :: rs, k)

/-- Receive `n` frames, one call after the other. -/
def recvFrames (c : Codec Item) : Nat → Client → Option (List (Option Item) × Client)
  | 0, k => some ([], k)
  | n + 1, k =>
    (recvFrame c k).bind fun (r, k) => (recvFrames c n k).map fun (rs, k) => (r :: rs, k)

@[simp] theorem length_frame (payload : List UInt8) :
    (frame payload).length = 4 + payload.length := by simp [frame]

theorem take_four_frame (payload rest : List UInt8) :
    (frame payload ++ rest).take 4 = BigEndian.bytes payload.length := by
  simp [frame, BigEndian.bytes]

theorem drop_four_frame (payload rest : List UInt8) :
    (frame payload ++ rest).drop 4 = payload ++ rest := by
  simp [frame, BigEndian.bytes]

theorem responseLength_bytes {n : Nat} (h : n < 2 ^ 32) :
    responseLength (BigEndian.bytes n) = n := BigEndian.toNat_word_bytes h

/-- **What a call can take from a stream that starts with a frame.**  When it returns
an item, the item is that frame's and the stream stands at the frame's end. -/
theorem recvFrame_item {c : Codec Item} {k k' : Client} {payload rest : List UInt8} {x : Item}
    (hin : k.incoming = frame payload ++ rest) (hlen : payload.length < 2 ^ 32)
    (h : recvFrame c k = some (some x, k')) : c.load payload = some x ∧ k'.incoming = rest := by
  unfold recvFrame at h
  split at h
  · cases h
  · dsimp only at h
    rw [hin] at h
    split at h
    · cases h
    · cases h
    · rename_i hhead
      obtain ⟨-, hdata, hrest, -⟩ := recvAll_done hhead
      rw [take_four_frame] at hdata
      rw [drop_four_frame] at hrest
      rw [hdata, responseLength_bytes hlen, hrest] at h
      split at h
      · cases h
      · split at h
        · cases h
        · cases h
        · rename_i hbody
          obtain ⟨-, hdata, hrest, -⟩ := recvAll_done hbody
          rw [List.take_left] at hdata
          rw [List.drop_left] at hrest
          simp only [Option.some.injEq, Prod.mk.injEq] at h
          obtain ⟨hload, rfl⟩ := h
          exact ⟨hdata ▸ hload, hrest⟩

/-- **A call whose frame comes through in time** takes exactly that frame. -/
theorem recvFrame_eq {c : Codec Item} {k : Client} {payload rest : List UInt8}
    {s s' : List Answer} (hk : k.connected = true) (hin : k.incoming = frame payload ++ rest)
    (hpos : payload ≠ []) (hlen : payload.length ≤ maxResponseSize)
    (hhead : readsThrough k.receives 0 4 = some s) (hbody : readsThrough s 0 payload.length = some s') :
    recvFrame c k = some (c.load payload, { k with receives := s', incoming := rest }) := by
  have hhead' := recvAll_eq (frame payload ++ rest) (by simp; omega) hhead
  have hbody' := recvAll_eq (payload ++ rest) (by simp) hbody
  rw [take_four_frame, drop_four_frame] at hhead'
  rw [List.take_left, List.drop_left] at hbody'
  have hne : ¬ (payload.length = 0 ∨ payload.length > maxResponseSize) := by
    have := List.length_pos_iff.mpr hpos
    omega
  have h32 : payload.length < 2 ^ 32 := Nat.lt_of_le_of_lt hlen (by decide)
  unfold recvFrame
  simp only [hk, hin, hhead', responseLength_bytes h32, if_neg hne, hbody', not_true_eq_false,
    if_false]

/-- A frame without a payload is consumed, and the call returns `NULL`. -/
theorem recvFrame_empty {c : Codec Item} {k : Client} {rest : List UInt8} {s : List Answer}
    (hk : k.connected = true) (hin : k.incoming = frame [] ++ rest)
    (hhead : readsThrough k.receives 0 4 = some s) :
    recvFrame c k = some (none, { k with receives := s, incoming := rest }) := by
  have hhead' := recvAll_eq (frame [] ++ rest) (by simp) hhead
  rw [take_four_frame, drop_four_frame, List.nil_append] at hhead'
  have hzero : responseLength (BigEndian.bytes ([] : List UInt8).length) = 0 :=
    responseLength_bytes (by decide)
  unfold recvFrame
  simp only [hk, hin, hhead', hzero, true_or, not_true_eq_false, if_true, if_false]

/-! ## Patient sockets

A socket that accepts or gives some of the bytes whenever it makes progress, never
errs, and never makes the CLI wait past its budget between two progresses. -/

/-- The answers of such a socket, after `waited` waits since the last progress. -/
def Patient : Nat → List Answer → Prop
  | _, [] => True
  | _, .bytes n :: script => 0 < n ∧ Patient 0 script
  | waited, .interrupted :: script => Patient waited script
  | waited, .again :: script => waited < eagainBudget ∧ Patient (waited + 1) script
  | _, .error :: _ => False

instance decidablePatient : ∀ (waited : Nat) (script : List Answer), Decidable (Patient waited script)
  | _, [] => .isTrue trivial
  | _, .bytes n :: script =>
    have := decidablePatient 0 script
    inferInstanceAs (Decidable (0 < n ∧ Patient 0 script))
  | waited, .interrupted :: script => decidablePatient waited script
  | waited, .again :: script =>
    have := decidablePatient (waited + 1) script
    inferInstanceAs (Decidable (waited < eagainBudget ∧ Patient (waited + 1) script))
  | _, .error :: _ => .isFalse id

/-- How many of the answers make progress. -/
def progress (script : List Answer) : Nat :=
  script.countP fun
    | .bytes _ => true
    | _ => false

@[simp] theorem progress_bytes (n : Nat) (script : List Answer) :
    progress (.bytes n :: script) = progress script + 1 := by simp [progress]

@[simp] theorem progress_interrupted (script : List Answer) :
    progress (.interrupted :: script) = progress script := by simp [progress]

@[simp] theorem progress_again (script : List Answer) :
    progress (.again :: script) = progress script := by simp [progress]

theorem Patient.mono {script : List Answer} {w w' : Nat} (h : Patient w script) (hw : w' ≤ w) :
    Patient w' script := by
  induction script generalizing w w' with
  | nil => trivial
  | cons a script ih =>
    cases a with
    | bytes n => exact h
    | interrupted => exact ih h hw
    | again => exact ⟨Nat.lt_of_le_of_lt hw h.1, ih h.2 (Nat.succ_le_succ hw)⟩
    | error => exact h

/-- Over a patient socket `_send_all` does not fail, and a progress for each byte
is enough for it to return 0. -/
theorem sendAll_patient {script : List Answer} {eagain : Nat} (data : List UInt8)
    (hp : Patient eagain script) :
    (sendAll script eagain data).status ≠ .failed ∧
    Patient 0 (sendAll script eagain data).script ∧
    (data.length ≤ progress script → (sendAll script eagain data).status = .done ∧
      progress script ≤ progress (sendAll script eagain data).script + data.length) := by
  fun_induction sendAll script eagain data with
  | case1 => exact ⟨by simp, hp.mono (Nat.zero_le _), fun _ => ⟨rfl, by simp⟩⟩
  | case2 => exact ⟨by simp, trivial, fun h => by simp [progress] at h⟩
  | case3 n script _ b data r ih =>
    obtain ⟨hpos, hrest⟩ := hp
    obtain ⟨h1, h2, h3⟩ := ih hrest
    refine ⟨h1, h2, fun hlen => ?_⟩
    simp only [List.length_cons, progress_bytes, List.length_drop] at hlen h3 ⊢
    obtain ⟨hdone, hleft⟩ := h3 (by omega)
    have hleft : progress script ≤ progress r.script + (data.length + 1 - n) := hleft
    refine ⟨hdone, ?_⟩
    show progress script + 1 ≤ progress r.script + (data.length + 1)
    omega
  | case4 _ _ _ _ ih => simpa using ih hp
  | case5 script eagain b data hbudget => exact absurd hp.1 (by omega)
  | case6 script eagain b data hbudget ih => simpa using ih hp.2
  | case7 => exact hp.elim

/-- Over a patient socket that has the bytes, `_recv_all` does not fail, and a
progress for each byte is enough for it to return 0. -/
theorem readsThrough_patient {script : List Answer} {eagain : Nat} (need : Nat)
    (hp : Patient eagain script) :
    (∀ script', readsThrough script eagain need = some script' → Patient 0 script') ∧
    (need ≤ progress script → ∃ script', readsThrough script eagain need = some script' ∧
      progress script ≤ progress script' + need) := by
  fun_induction readsThrough script eagain need with
  | case1 =>
    exact ⟨fun _ h => by cases h; exact hp.mono (Nat.zero_le _), fun _ => ⟨_, rfl, by simp⟩⟩
  | case2 => exact ⟨by simp, fun h => by simp [progress] at h⟩
  | case3 => exact absurd hp.1 (by omega)
  | case4 n script _ need hn ih =>
    obtain ⟨h1, h2⟩ := ih hp.2
    refine ⟨h1, fun hlen => ?_⟩
    simp only [progress_bytes] at hlen ⊢
    obtain ⟨script', hs, hle⟩ := h2 (by omega)
    exact ⟨script', hs, by omega⟩
  | case5 _ _ _ ih => simpa using ih hp
  | case6 script eagain need hbudget => exact absurd hp.1 (by omega)
  | case7 script eagain need hbudget ih => simpa using ih hp.2
  | case8 => exact hp.elim

theorem recvAll_patient {script : List Answer} {incoming : List UInt8} {eagain need : Nat}
    (hlen : need ≤ incoming.length) (hp : Patient eagain script) :
    (recvAll script incoming eagain need).status ≠ .failed := by
  fun_induction recvAll script incoming eagain need with
  | case1 | case2 => simp
  | case3 n script incoming _ need result hresult =>
    have := hp.1
    omega
  | case4 n script incoming _ need result hresult r ih =>
    exact ih (by rw [List.length_drop]; omega) hp.2
  | case5 _ _ _ _ ih => exact ih hlen hp
  | case6 script incoming eagain need hbudget => exact absurd hp.1 (by omega)
  | case7 script incoming eagain need hbudget ih => exact ih hlen hp.2
  | case8 => exact hp.elim

end Offs.CliClient
