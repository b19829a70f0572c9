import OffsProof.Framing
import OffsProof.LabelledRun

/-! # Replies and their requests

`cli_client_send` writes one frame and reads one frame, and nothing in either frame
says which request a reply belongs to: the pairing is by position in the stream
alone.  A call that fails returns `NULL` and leaves the connection open, so what the
next call reads depends on where the failed one left the stream.

The other end is a daemon that answers each request with one frame, in order
(`Daemon`).  It takes whole frames out of the bytes the socket has accepted, so a
request of which only a part went out stays there and swallows the next one.

A call is `Settled` when the socket takes the whole request or none of it, and then
delivers the whole reply in time and the reply is not over the client's cap.  A
length of zero and a payload that does not parse are harmless: the frame has been
consumed.  Over settled calls the two ends stay aligned (`aligned_step`), and the
call after them can only return its own reply (`replies_paired`).
-/
namespace Offs.CliClient
open LabelledRun

variable {Item δ : Type}

/-- A daemon with states `δ` that answers each request with one frame. -/
structure Daemon (δ : Type) where
  answer : δ → List UInt8 → List UInt8 × δ
  /-- The length of a reply fits its 4-byte prefix. -/
  framed : ∀ d request, (answer d request).1.length < 2 ^ 32

/-- Both ends of a connection.  The daemon has yet to look at `client.accepted`. -/
structure Session (δ : Type) where
  client : Client
  daemon : δ
  deriving DecidableEq, Repr

/-- The whole frames at the head of `bytes`, and the bytes after them.  Each frame has
at least four bytes, so `bytes.length` is enough fuel. -/
def wholeFrames : Nat → List UInt8 → List (List UInt8) × List UInt8
  | 0, bytes => ([], bytes)
  | fuel + 1, bytes =>
    let n := responseLength (bytes.take 4)
    if bytes.length < 4 + n then ([], bytes)
    else
      let r := wholeFrames fuel (bytes.drop (4 + n))
      ((bytes.drop 4).take n :: r.1, r.2)

/-- The daemon answers `requests` one after the other. -/
def answers (D : Daemon δ) : δ → List (List UInt8) → List UInt8 × δ
  | d, [] => ([], d)
  | d, request :: requests =>
    let r := D.answer d request
    let rest := answers D r.2 requests
    (frame r.1 ++ rest.1, rest.2)

/-- The daemon reads what the socket has accepted and answers every whole request. -/
def serve (D : Daemon δ) (k : Client) (d : δ) : Session δ :=
  let r := wholeFrames k.accepted.length k.accepted
  let a := answers D d r.1
  ⟨{ k with accepted := r.2, incoming := k.incoming ++ a.1 }, a.2⟩

/-- `cli_client_send`, with the daemon answering in between; `none` while the socket
keeps the call waiting. -/
def cliClientSend (c : Codec Item) (D : Daemon δ) (s : Session δ) (request : Item) :
    Option (Option Item × Session δ) :=
  if ¬ s.client.connected then some (none, s)
  else
    match sendFrame c s.client request with
    | none => none
    | some (.error _, k) => some (none, serve D k s.daemon)
    | some (.ok (), k) =>
      let s := serve D k s.daemon
      (recvFrame c s.client).map fun (r, k) => (r, { s with client := k })

/-- One call as a step of the session, its result dropped. -/
def callStep (c : Codec Item) (D : Daemon δ) (s : Session δ) (request : Item) :
    Option (Session δ) :=
  (cliClientSend c D s request).map Prod.snd

/-- The payload of the daemon's reply to `request`. -/
def replyTo (c : Codec Item) (D : Daemon δ) (s : Session δ) (request : Item) : List UInt8 :=
  (D.answer s.daemon (payloadOf c request)).1

/-- Both ends are at a frame boundary, with nothing on its way: the daemon has nothing left to
read, and no byte of a reply is waiting for the client. -/
structure Aligned (s : Session δ) : Prop where
  accepted : s.client.accepted = []
  incoming : s.client.incoming = []

/-- The socket's part in a call that leaves the connection in step: it takes the whole request, or
none of it; and if it has taken it, the reply is not over the cap, and its length and its payload
come in within the waits.  Nothing is asked of a request the client cannot frame. -/
def Settled (c : Codec Item) (D : Daemon δ) (s : Session δ) (request : Item) : Prop :=
  Framable c request →
    (sendAll s.client.sends 0 (frame (payloadOf c request))).accepted = [] ∨
    (sendAll s.client.sends 0 (frame (payloadOf c request))).accepted =
        frame (payloadOf c request) ∧
      (replyTo c D s request).length ≤ maxResponseSize ∧
      ∃ script script', readsThrough s.client.receives 0 4 = some script ∧
        readsThrough script 0 (replyTo c D s request).length = some script'

/-! ## The daemon's side -/

theorem wholeFrames_nil (fuel : Nat) : wholeFrames fuel [] = ([], []) := by
  cases fuel <;> simp [wholeFrames]

theorem wholeFrames_frame {payload : List UInt8} (h : payload.length < 2 ^ 32) (fuel : Nat) :
    wholeFrames (fuel + 1) (frame payload) = ([payload], []) := by
  have htake : (frame payload).take 4 = BigEndian.bytes payload.length := by
    simpa using take_four_frame payload []
  have hdrop : (frame payload).drop 4 = payload := by simpa using drop_four_frame payload []
  have hend : (frame payload).drop (4 + payload.length) = [] := by
    rw [← List.drop_drop, hdrop, List.drop_length]
  simp [wholeFrames, htake, hdrop, hend, wholeFrames_nil, responseLength_bytes h]

/-- With nothing to read the daemon does nothing. -/
theorem serve_idle {D : Daemon δ} {k : Client} (d : δ) (h : k.accepted = []) :
    serve D k d = ⟨k, d⟩ := by
  cases k
  cases h
  simp [serve, wholeFrames_nil, answers]

/-- **One whole request is answered with one frame.** -/
theorem serve_request {D : Daemon δ} {k : Client} (d : δ) {payload : List UInt8}
    (hlen : payload.length < 2 ^ 32) (hacc : k.accepted = frame payload) (hin : k.incoming = []) :
    serve D k d = ⟨{ k with accepted := [], incoming := frame (D.answer d payload).1 },
      (D.answer d payload).2⟩ := by
  have hfuel : k.accepted.length = (3 + payload.length) + 1 := by rw [hacc, length_frame]; omega
  have hwhole : wholeFrames k.accepted.length k.accepted = ([payload], []) := by
    rw [hfuel, hacc, wholeFrames_frame hlen]
  simp [serve, hwhole, hin, answers]

/-! ## One call -/

/-- A request that cannot be framed reaches nobody. -/
theorem sendFrame_unframable {c : Codec Item} (hc : c.Lawful) {k : Client} {x : Item}
    (hx : ¬ Framable c x) : ∃ e, sendFrame c k x = some (.error e, k) := by
  unfold sendFrame
  split
  · exact ⟨_, rfl⟩
  · cases hser : c.serialize x with
    | none => exact ⟨_, rfl⟩
    | some payload =>
      cases payload with
      | nil => exact ⟨_, rfl⟩
      | cons b payload =>
        have hcap : maxFrameSize < (b :: payload).length := by
          by_contra hle
          exact hx ⟨_, hser, by simp, Nat.not_lt.mp hle⟩
        simp only [hc.encode_cap _ hcap]
        exact ⟨_, rfl⟩

/-- **The cases of a call on an aligned connection.**  Either the daemon has not been
reached, or a part of the request has (and the call has failed), or the whole request
has, and the call is a `cli_client_recv_frame` with exactly the reply to come. -/
theorem cliClientSend_cases {c : Codec Item} (hc : c.Lawful) {D : Daemon δ} {s t : Session δ}
    {x : Item} {r : Option Item} (hs : Aligned s) (h : cliClientSend c D s x = some (r, t)) :
    (r = none ∧ Aligned t) ∨
    (r = none ∧ Framable c x ∧
      (sendAll s.client.sends 0 (frame (payloadOf c x))).accepted ≠ [] ∧
      (sendAll s.client.sends 0 (frame (payloadOf c x))).accepted ≠ frame (payloadOf c x)) ∨
    (Framable c x ∧ s.client.connected = true ∧
      (sendAll s.client.sends 0 (frame (payloadOf c x))).status = .done ∧
      ∃ k k', k.connected = true ∧ k.receives = s.client.receives ∧ k.accepted = [] ∧
        k.incoming = frame (replyTo c D s x) ++ [] ∧ recvFrame c k = some (r, k') ∧
        t.client = k') := by
  unfold cliClientSend at h
  split at h
  · cases h
    exact .inl ⟨rfl, hs⟩
  · rename_i hk
    have hk : s.client.connected = true := by simpa using hk
    by_cases hx : Framable c x
    · rw [sendFrame_eq hc hk hx] at h
      dsimp only at h
      cases hstatus : (sendAll s.client.sends 0 (frame (payloadOf c x))).status with
      | waiting => simp [hstatus] at h
      | failed =>
        simp only [hstatus, Option.some.injEq, Prod.mk.injEq] at h
        obtain ⟨rfl, rfl⟩ := h
        by_cases hnil : (sendAll s.client.sends 0 (frame (payloadOf c x))).accepted = []
        · refine .inl ⟨rfl, ?_⟩
          rw [serve_idle _ (by simp [hs.accepted, hnil])]
          exact ⟨by simp [hs.accepted, hnil], hs.incoming⟩
        · refine .inr (.inl ⟨rfl, hx, hnil, fun hwhole => ?_⟩)
          rw [sendAll_whole hwhole] at hstatus
          cases hstatus
      | done =>
        have hlen : (payloadOf c x).length < 2 ^ 32 :=
          Nat.lt_of_le_of_lt hx.payload.2.2 (by decide)
        have hserve := serve_request (D := D) (k := { s.client with
            sends := (sendAll s.client.sends 0 (frame (payloadOf c x))).script
            accepted := s.client.accepted ++
              (sendAll s.client.sends 0 (frame (payloadOf c x))).accepted })
          s.daemon hlen (by simp [hs.accepted, sendAll_done hstatus]) hs.incoming
        simp only [hstatus, hserve, Option.map_eq_some_iff] at h
        obtain ⟨⟨r', k'⟩, hrecv, heq⟩ := h
        cases heq
        refine .inr (.inr ⟨hx, hk, rfl, _, k', ?_, ?_, ?_, ?_, hrecv, rfl⟩)
        · exact hk
        · rfl
        · rfl
        · rw [List.append_nil, replyTo]
    · obtain ⟨e, he⟩ := sendFrame_unframable hc (k := s.client) hx
      simp only [he, Option.some.injEq, Prod.mk.injEq] at h
      obtain ⟨rfl, rfl⟩ := h
      rw [serve_idle _ hs.accepted]
      exact .inl ⟨rfl, hs⟩

/-- **A settled call leaves the two ends aligned**, whatever it returns.  If the request was not
sent at all nothing has changed; and if it was sent whole the daemon has answered it with one
frame, of which the client has taken every byte, also where it could make nothing of them. -/
theorem aligned_step {c : Codec Item} (hc : c.Lawful) {D : Daemon δ} {s t : Session δ} {x : Item}
    (hs : Aligned s) (hok : Settled c D s x) (h : callStep c D s x = some t) : Aligned t := by
  obtain ⟨⟨r, t'⟩, hcall, rfl⟩ := Option.map_eq_some_iff.mp h
  rcases cliClientSend_cases hc hs hcall with ⟨-, ht⟩ | ⟨-, hx, hnil, hpart⟩ |
    ⟨hx, hk, hdone, k, k', hkc, hkr, hka, hki, hrecv, htk⟩
  · exact ht
  · rcases hok hx with h0 | ⟨hwhole, -⟩
    · exact absurd h0 hnil
    · exact absurd hwhole hpart
  · have hsent := sendAll_done hdone
    rcases hok hx with h0 | ⟨-, hcap, script, script', hhead, hbody⟩
    · rw [h0] at hsent
      have := congrArg List.length hsent
      simp only [List.length_nil, length_frame] at this
      omega
    · rw [← hkr] at hhead
      have hk' : k'.accepted = k.accepted ∧ k'.incoming = [] := by
        by_cases hempty : replyTo c D s x = []
        · rw [hempty] at hki
          rw [recvFrame_empty hkc hki hhead] at hrecv
          cases hrecv
          exact ⟨rfl, rfl⟩
        · rw [recvFrame_eq hkc hki hempty hcap hhead hbody] at hrecv
          cases hrecv
          exact ⟨rfl, rfl⟩
      exact ⟨by rw [htk, hk'.1, hka], by rw [htk, hk'.2]⟩

/-! ## Every sequence of calls -/

/-- **Replies stay paired with requests as long as no call is cut off.**  After any sequence of
settled calls on a fresh connection, whatever these calls returned, an item that the next call
returns is the daemon's reply to that call's request.  The calls leave both ends at a frame
boundary with nothing on its way (`Aligned`), so that the only frame that the next call can read
is the reply to its own request. -/
theorem replies_paired {c : Codec Item} (hc : c.Lawful) (D : Daemon δ) {s t u : Session δ}
    {earlier : List Item} {request item : Item} (hs : Aligned s)
    (hok : Meets (callStep c D) (Settled c D) s earlier)
    (hrun : exec (callStep c D) s earlier = some t)
    (hcall : cliClientSend c D t request = some (some item, u)) :
    c.load (replyTo c D t request) = some item := by
  have ht : Aligned t := exec_invariant_of_meets (aligned_step hc) hs hok hrun
  rcases cliClientSend_cases hc ht hcall with ⟨hr, -⟩ | ⟨hr, -⟩ |
    ⟨-, -, -, k, k', -, -, -, hki, hrecv, -⟩
  · cases hr
  · cases hr
  · exact (recvFrame_item hki (D.framed _ _) hrecv).1

/-- A daemon that answers every request with the request itself. -/
def echo : Daemon Unit where
  answer _ request := (request.take maxFrameSize, ())
  framed _ request := by
    have h : (request.take maxFrameSize).length ≤ maxFrameSize := List.length_take_le _ _
    exact Nat.lt_of_le_of_lt h (by decide)

/-- A fresh connection to `echo`, over a socket that takes each request of one byte
at once and answers receives with `receives`. -/
def echoSession (receives : List Answer) : Session Unit :=
  ⟨⟨true, [.bytes 5, .bytes 5], receives, [], []⟩, ()⟩

/-- The theorem over a socket that splits both replies. -/
theorem replies_paired_split :
    ∃ t u : Session Unit,
      exec (callStep byteCodec echo)
        (echoSession [.bytes 3, .bytes 9, .bytes 1, .bytes 4, .again, .bytes 1]) [3] = some t ∧
      cliClientSend byteCodec echo t 5 = some (some 5, u) ∧
      byteCodec.load (replyTo byteCodec echo t 5) = some 5 := by
  have haligned : Aligned (echoSession [.bytes 3, .bytes 9, .bytes 1, .bytes 4, .again, .bytes 1]) :=
    ⟨rfl, rfl⟩
  have hsettled : Meets (callStep byteCodec echo) (Settled byteCodec echo)
      (echoSession [.bytes 3, .bytes 9, .bytes 1, .bytes 4, .again, .bytes 1]) [3] :=
    ⟨fun _ => .inr ⟨by decide, by decide, _, _, rfl, rfl⟩, trivial⟩
  exact ⟨_, _, rfl, rfl, replies_paired byteCodec_lawful echo haligned hsettled rfl rfl⟩

/-- The wait runs out before the next byte has come in. -/
theorem recvAll_budget (script : List Answer) (incoming : List UInt8) (need waits : Nat)
    (h : waits ≤ eagainBudget) :
    recvAll (List.replicate (waits + 1) .again ++ script) incoming (eagainBudget - waits) (need + 1) =
      ⟨.failed, [], incoming, script⟩ := by
  induction waits with
  | zero => simp [recvAll]
  | succ waits ih =>
    have hleft : ¬ eagainBudget - (waits + 1) ≥ eagainBudget := by omega
    have hnext : eagainBudget - (waits + 1) + 1 = eagainBudget - waits := by omega
    rw [List.replicate_succ, List.cons_append, recvAll, if_neg hleft, hnext]
    exact ih (by omega)

/-- A call whose wait runs out before the length prefix takes nothing. -/
theorem recvFrame_budget (c : Codec Item) {k : Client} {script : List Answer}
    (hk : k.connected = true)
    (hr : k.receives = List.replicate (eagainBudget + 1) .again ++ script) :
    recvFrame c k = some (none, { k with receives := script }) := by
  have hhead := recvAll_budget script k.incoming 3 eagainBudget (Nat.le_refl _)
  rw [Nat.sub_self, ← hr] at hhead
  simp [recvFrame, hk, hhead]

/-- The first call of `echoSession`, once its request has been answered. -/
theorem cliClientSend_echoSession (receives : List Answer) :
    cliClientSend byteCodec echo (echoSession receives) 3 =
      (recvFrame byteCodec ⟨true, [.bytes 5], receives, frame [3], []⟩).map
        fun (r, k) => (r, ⟨k, ()⟩) := rfl

/-- **A late reply goes to the wrong request.**  The reply to `3` does not come in
within the budget; the call for `5` then reads it. -/
theorem late_reply_mispaired :
    ∃ t u : Session Unit,
      exec (callStep byteCodec echo)
        (echoSession (List.replicate (eagainBudget + 1) .again ++ [.bytes 4, .bytes 1])) [3] = some t ∧
      cliClientSend byteCodec echo t 5 = some (some 3, u) ∧
      byteCodec.load (replyTo byteCodec echo t 5) = some 5 := by
  refine ⟨⟨⟨true, [.bytes 5], [.bytes 4, .bytes 1], frame [3], []⟩, ()⟩, _, ?_, rfl, rfl⟩
  refine exec_cons.mpr ⟨_, ?_, exec_nil _⟩
  rw [callStep, cliClientSend_echoSession, recvFrame_budget _ rfl rfl]
  rfl

end Offs.CliClient
