import OffsProof.PutStream
import OffsProof.GetStream
import OffsProof.RequestPairing

/-! # Transfers over the socket

`PutStream` and `GetStream` know frames: a send succeeds or fails, and a reply is a frame or the
end of the connection.  Here both run over `client.c`, on a socket that takes and gives the bytes
in any pieces.

What the daemon has been sent of an upload is, cut at its length prefixes, exactly the frames
whose sending `cmd_put` takes for successful, and after them at most a piece of the one that
failed (`upload_on_the_wire`).  A download that returns 0 has written the payloads of all frames
up to GET_END and stands at the byte after it, whatever the socket did; and over a patient socket
it does return what the frames ask for (`download_over_socket`).

The upload is the machine of `PutStream` with a connection beside it, in which a send is a call of
`cli_client_send_frame`.  A step over the socket is a step of the machine (`Upload.step_put`), so
all that is known of its runs carries over; what is added is the stream of accepted bytes, to
which a send that succeeds adds its frame and one that fails a piece of it, and then nothing
follows (`Wired`).  The download is the loop of `GetStream` over calls of
`cli_client_recv_frame`, by induction over the frames that are still to come.
-/
namespace Offs.CliClient

variable {Item : Type} {c : Codec Item}

/-- No whole frame is at the head of these bytes. -/
def Incomplete (bytes : List UInt8) : Prop := bytes.length < 4 + responseLength (bytes.take 4)

theorem incomplete_nil : Incomplete [] := by simp [Incomplete]

/-- A piece of a frame that is not all of it. -/
theorem incomplete_of_piece {payload piece : List UInt8} (hlen : payload.length < 2 ^ 32)
    (hpiece : piece <+: frame payload) (hne : piece ≠ frame payload) : Incomplete piece := by
  have hshort : piece.length < (frame payload).length := by
    rcases Nat.lt_or_ge piece.length (frame payload).length with h | h
    · exact h
    · exact absurd (hpiece.eq_of_length_le h) hne
  rw [length_frame] at hshort
  unfold Incomplete
  rcases Nat.lt_or_ge piece.length 4 with h | h
  · omega
  · -- The length prefix is there in full.
    obtain ⟨tail, htail⟩ := hpiece
    have htake : piece.take 4 = BigEndian.bytes payload.length := by
      have hfour := take_four_frame payload []
      rw [List.append_nil, ← htail, List.take_append_of_le_length h] at hfour
      exact hfour
    rw [htake, responseLength_bytes hlen]
    exact hshort

theorem wholeFrames_incomplete {bytes : List UInt8} (h : Incomplete bytes) (fuel : Nat) :
    wholeFrames fuel bytes = ([], bytes) := by
  cases fuel with
  | zero => rfl
  | succ fuel => exact if_pos h

/-- **The frames of a stream are found again**, with what follows them. -/
theorem wholeFrames_wire {items : List Item} {rest : List UInt8}
    (hitems : ∀ x ∈ items, Framable c x) (hrest : Incomplete rest) {fuel : Nat}
    (hfuel : items.length ≤ fuel) :
    wholeFrames fuel (wire c items ++ rest) = (items.map (payloadOf c), rest) := by
  induction items generalizing fuel with
  | nil => exact wholeFrames_incomplete hrest fuel
  | cons x xs ih =>
    obtain ⟨fuel, rfl⟩ : ∃ n, fuel = n + 1 := ⟨fuel - 1, by simp at hfuel; omega⟩
    obtain ⟨-, -, hcap⟩ := (hitems x List.mem_cons_self).payload
    have hlen : (payloadOf c x).length < 2 ^ 32 := Nat.lt_of_le_of_lt hcap (by decide)
    have hxs := ih (fun y hy => hitems y (List.mem_cons_of_mem x hy)) (Nat.le_of_succ_le_succ hfuel)
    have hdrop : (frame (payloadOf c x) ++ (wire c xs ++ rest)).drop
        (4 + (payloadOf c x).length) = wire c xs ++ rest := by
      rw [← length_frame, List.drop_left]
    rw [wire_cons, List.append_assoc, wholeFrames, take_four_frame, responseLength_bytes hlen]
    rw [if_neg (by simp only [List.length_append, length_frame]; omega), hdrop, hxs]
    simp only [drop_four_frame, List.take_left, List.map_cons]

theorem length_le_wire (items : List Item) : items.length ≤ (wire c items).length := by
  induction items with
  | nil => simp
  | cons x xs ih =>
    rw [wire_cons, List.length_append, length_frame, List.length_cons]
    omega

/-- **What a call of `cli_client_send_frame` adds to the stream**: the frame if it returns 0,
and otherwise a piece of it that is no whole frame. -/
theorem sendFrame_accepted (hc : c.Lawful) {k k' : Client} {x : Item}
    {r : Except SendError Unit} (hk : k.connected = true)
    (h : sendFrame c k x = some (r, k')) :
    k'.connected = true ∧
      ((r = .ok () ∧ Framable c x ∧ k'.accepted = k.accepted ++ frame (payloadOf c x)) ∨
        (r ≠ .ok () ∧ ∃ piece, Incomplete piece ∧ k'.accepted = k.accepted ++ piece)) := by
  by_cases hx : Framable c x
  · rw [sendFrame_eq hc hk hx] at h
    dsimp only at h
    split at h
    · rename_i hdone
      cases h
      exact ⟨hk, .inl ⟨rfl, hx, by rw [sendAll_done hdone]⟩⟩
    · rename_i hfailed
      cases h
      obtain ⟨-, -, hcap⟩ := hx.payload
      refine ⟨hk, .inr ⟨by simp, _, ?_, rfl⟩⟩
      refine incomplete_of_piece (Nat.lt_of_le_of_lt hcap (by decide)) ( sendAll_prefix _ _ _) ?_
      intro hwhole
      have hdone := sendAll_whole hwhole
      rw [hfailed] at hdone
      cases hdone
    · cases h
  · obtain ⟨e, he⟩ := sendFrame_unframable hc (k := k) hx
    rw [h] at he
    cases he
    exact ⟨hk, .inr ⟨by simp, [], incomplete_nil, (List.append_nil _).symm⟩⟩

end Offs.CliClient

/-! ## Uploads -/

namespace Offs.Put
open CText LabelledRun CliClient

variable {Item : Type}

/-- The frame that `cli_client_send_frame` is called with next. -/
def Point.outgoing : Point → Option Frame
  | .sendingStart request => some (.start request)
  | .sendingData chunk => some (.data chunk)
  | .sendingEnd => some .finish
  | _ => none

/-- `cmd_put` has returned because a frame could not be sent. -/
def Point.sendFailed : Point → Bool
  | .failed .sendStart | .failed (.sendData _) | .failed .sendEnd => true
  | _ => false

/-- `cmd_put` and its connection. -/
structure Upload where
  put : St
  client : Client

section Step
variable (c : Codec Item) (item : Frame → Item) (mime : Text → Text)

/-- A step of `cmd_put`, where a send is a call of `cli_client_send_frame` with the item that
the encoder gives. -/
def Upload.step (s : Upload) : Label → Option Upload
  | .send ok =>
    s.put.point.outgoing.bind fun f =>
      (sendFrame c s.client (item f)).bind fun (r, client) =>
        if r.isOk = ok then (Put.step mime s.put (.send ok)).map fun put => ⟨put, client⟩ else none
  | l => (Put.step mime s.put l).map fun put => { s with put }

end Step

variable {c : Codec Item} {item : Frame → Item} {mime : Text → Text} {s t : Upload} {l : Label}

/-- A step over the socket is a step. -/
theorem Upload.step_put (h : s.step c item mime l = some t) :
    Put.step mime s.put l = some t.put := by
  cases l with
  | send ok =>
    simp only [Upload.step, Option.bind_eq_some_iff, Prod.exists] at h
    obtain ⟨f, -, r, client, -, h⟩ := h
    obtain ⟨-, h⟩ := Option.ite_none_right_eq_some.mp h
    obtain ⟨put, hput, rfl⟩ := Option.map_eq_some_iff.mp h
    exact hput
  | _ =>
    obtain ⟨put, hput, rfl⟩ := Option.map_eq_some_iff.mp h
    exact hput

/-- Away from the sends, nothing is sent. -/
theorem Upload.step_quiet (hl : ∀ ok, l ≠ .send ok) (h : s.step c item mime l = some t) :
    t.client = s.client ∧ t.put.frames = s.put.frames := by
  have hput := Upload.step_put h
  have hclient : t.client = s.client := by
    cases l with
    | send ok => exact absurd rfl (hl ok)
    | _ =>
      obtain ⟨put, -, rfl⟩ := Option.map_eq_some_iff.mp h
      rfl
  refine ⟨hclient, ?_⟩
  generalize t.put = p at hput
  cases step_moves hput with
  | turn | measured | entered | exhausted | filled => rfl
  | started | sent | finished => exact absurd rfl (hl true)

/-- A send that succeeds adds its frame, and one that fails ends the upload. -/
theorem step_send_frames {p q : St} {ok : Bool} {f : Frame} (hf : p.point.outgoing = some f)
    (h : Put.step mime p (.send ok) = some q) :
    (ok = true → q.frames = p.frames ++ [f]) ∧
      (ok = false → q.frames = p.frames ∧ q.point.sendFailed = true) := by
  rcases hp : p.point with _ | _ | request | _ | _ | _ | chunk | _ | _ | _ | _ | _ | _ <;>
    rcases ok with _ | _ <;>
    simp only [Put.step, hp, reduceCtorEq, Option.some.injEq, if_true, if_false,
      Bool.false_eq_true] at h <;> subst h <;> simp only [hp, Point.outgoing] at hf <;> cases hf <;>
    simp [Point.sendFailed, St.sent, St.loop]

/-- A send that has failed is the end. -/
theorem not_step_of_sendFailed (hp : s.put.point.sendFailed = true) :
    Put.step mime s.put l = none := by
  rcases hpoint : s.put.point with _ | _ | _ | _ | _ | _ | _ | _ | _ | _ | why | _ | _ <;>
    simp only [hpoint, Point.sendFailed, Bool.false_eq_true] at hp
  rcases l with _ | _ | _ | _ | _ | _ <;> simp only [Put.step, hpoint]

/-- **What is on the wire**: the frames that have been sent, and, once a send has failed, a piece
of one more.  The piece is not a whole frame, so that the daemon waits for the rest of it and
takes it for nothing. -/
structure Wired (c : Codec Item) (item : Frame → Item) (s : Upload) : Prop where
  connected : s.client.connected = true
  framable : ∀ f ∈ s.put.frames, Framable c (item f)
  accepted : ∃ rest, Incomplete rest ∧ s.client.accepted = wire c (s.put.frames.map item) ++ rest ∧
    (rest ≠ [] → s.put.point.sendFailed = true)

theorem wired_begin (argv : List Text) (content : List UInt8) {k : Client}
    (hk : k.connected = true) (hempty : k.accepted = []) :
    Wired c item ⟨.begin argv content, k⟩ where
  connected := hk
  framable := by simp [St.begin]
  accepted := ⟨[], incomplete_nil, by simp [hempty, St.begin], fun h => absurd rfl h⟩

theorem wire_append (c : Codec Item) (xs ys : List Item) :
    wire c (xs ++ ys) = wire c xs ++ wire c ys := List.flatMap_append

theorem wired_step (hc : c.Lawful) (hs : Wired c item s) (h : s.step c item mime l = some t) :
    Wired c item t := by
  have hput := Upload.step_put h
  -- Nothing follows a send that has failed, so there are only whole frames so far.
  have hwhole : s.client.accepted = wire c (s.put.frames.map item) := by
    obtain ⟨rest, -, haccepted, hfailed⟩ := hs.accepted
    by_cases hrest : rest = []
    · simpa [hrest] using haccepted
    · rw [not_step_of_sendFailed (hfailed hrest)] at hput
      cases hput
  by_cases hl : ∀ ok, l ≠ .send ok
  · obtain ⟨hclient, hframes⟩ := Upload.step_quiet hl h
    refine ⟨by rw [hclient]; exact hs.connected, by rw [hframes]; exact hs.framable, [],
      incomplete_nil, ?_, fun hne => absurd rfl hne⟩
    rw [hclient, hframes, hwhole, List.append_nil]
  · obtain ⟨ok, hnot⟩ := not_forall.mp hl
    obtain rfl : l = .send ok := not_not.mp hnot
    simp only [Upload.step, Option.bind_eq_some_iff, Prod.exists] at h
    obtain ⟨f, hf, r, client, hsend, h⟩ := h
    obtain ⟨hok, h⟩ := Option.ite_none_right_eq_some.mp h
    obtain ⟨put, -, rfl⟩ := Option.map_eq_some_iff.mp h
    obtain ⟨hadds, hfails⟩ := step_send_frames hf hput
    obtain ⟨hconnected, ⟨rfl, hframable, haccepted⟩ | ⟨hr, piece, hpiece, haccepted⟩⟩ :=
      sendFrame_accepted hc hs.connected hsend
    · have hframes : put.frames = s.put.frames ++ [f] := hadds hok.symm
      refine ⟨hconnected, ?_, [], incomplete_nil, ?_, fun hne => absurd rfl hne⟩
      · intro g hg
        rw [hframes] at hg
        rcases List.mem_append.mp hg with hg | hg
        · exact hs.framable g hg
        · rw [List.mem_singleton.mp hg]
          exact hframable
      · show client.accepted = wire c (put.frames.map item) ++ []
        rw [haccepted, hwhole, hframes, List.map_append, wire_append]
        simp
    · have hfalse : ok = false := by
        rw [← hok]
        cases r with
        | error e => rfl
        | ok u => exact absurd rfl hr
      obtain ⟨hframes, hfailed⟩ : put.frames = s.put.frames ∧ put.point.sendFailed = true :=
        hfails hfalse
      refine ⟨hconnected, ?_, piece, hpiece, ?_, fun _ => hfailed⟩
      · show ∀ g ∈ put.frames, Framable c (item g)
        rw [hframes]
        exact hs.framable
      · show client.accepted = wire c (put.frames.map item) ++ piece
        rw [haccepted, hwhole, hframes]

/-- **What the daemon has been sent of an upload**, at any time and on any socket.  Cut at the
length prefixes it is the frames that `cmd_put` has sent successfully, each of which loads to
its message, and a piece of a frame only if the upload has ended with a failed send.  The
payloads make up a beginning of the file; and once PUT_END has been sent, with no read that
came back empty, they are as much of it as PUT_START has announced. -/
theorem upload_on_the_wire (hc : c.Lawful) (argv : List Text) (content : List UInt8) {k : Client}
    (hk : k.connected = true) (hempty : k.accepted = []) {ls : List Label} {u : Upload}
    (hrun : exec (Upload.step c item mime) ⟨.begin argv content, k⟩ ls = some u) :
    (∃ rest, wholeFrames u.client.accepted.length u.client.accepted =
        (u.put.frames.map (fun f => payloadOf c (item f)), rest) ∧
      (rest ≠ [] → u.put.point.sendFailed = true)) ∧
    (∀ f ∈ u.put.frames, c.load (payloadOf c (item f)) = some (item f)) ∧
    (payloads u.put.frames).flatten <+: content ∧
    (.finish ∈ u.put.frames → 0 ∉ u.put.reads →
      ∃ request, u.put.frames =
          .start request :: (payloads u.put.frames).map .data ++ [.finish] ∧
        (payloads u.put.frames).flatten = content.take request.streamLength ∧
        request.streamLength ≤ content.length) := by
  have hu : Wired c item u :=
    exec_invariant (fun hs h => wired_step hc hs h) (wired_begin argv content hk hempty) hrun
  have hput : exec (Put.step mime) (.begin argv content) ls = some u.put :=
    exec_map (fun h => Upload.step_put h) hrun
  have hinv : Inv content u.put := inv_run (inv_begin argv content) hput
  have hbegins : (payloads u.put.frames).flatten <+: content := by
    have hread := hinv.read_eq
    rw [hinv.chunks_eq, List.flatten_append, List.append_assoc] at hread
    exact ⟨_, hread⟩
  refine ⟨?_, ?_, hbegins, ?_⟩
  · obtain ⟨rest, hrest, haccepted, hfailed⟩ := hu.accepted
    refine ⟨rest, ?_, hfailed⟩
    have hitems : ∀ x ∈ u.put.frames.map item, Framable c x := by
      intro x hx
      obtain ⟨f, hf, rfl⟩ := List.mem_map.mp hx
      exact hu.framable f hf
    have hfuel : (u.put.frames.map item).length ≤ u.client.accepted.length := by
      rw [haccepted, List.length_append]
      exact Nat.le_add_right_of_le (length_le_wire _)
    rw [haccepted] at hfuel ⊢
    rw [wholeFrames_wire hitems hrest hfuel, List.map_map]
    rfl
  · intro f hf
    obtain ⟨hser, -, -⟩ := (hu.framable f hf).payload
    exact hc.load_serialize _ _ hser
  · intro hend hzero
    have hstage := finished_of_inv hinv hend
    obtain ⟨request, hlength, hframes⟩ := hinv.framed (by simp [hstage])
    rw [if_pos hstage] at hframes
    have hall : u.put.bytesSent = u.put.size := (hinv.ended (.inr hstage)).1.mpr hzero
    have hsent : (payloads u.put.frames).flatten.length = request.streamLength := by
      rw [hinv.sent_eq, hall, hlength]
    refine ⟨request, hframes, ?_, ?_⟩
    · rw [← hsent]
      exact List.prefix_iff_eq_take.mp hbegins
    · rw [← hsent]
      exact hbegins.length_le

/-- Messages of one byte: the start, the end, and a chunk of one small byte. -/
def byteItem : Frame → Fin 24
  | .start _ => 0
  | .finish => 1
  | .data [b] => Fin.ofNat 24 (3 + b.toNat)
  | .data _ => 2

/-- A connection that takes three bytes at a time. -/
def slowUpload : Client where
  connected := true
  sends := .interrupted :: List.replicate 8 (.bytes 3)
  receives := []
  incoming := []
  accepted := []

/-- The upload of two bytes over it. -/
theorem upload_on_the_wire_slow :
    ∃ u, exec (Upload.step byteCodec byteItem id) ⟨.begin [lit "f"] [1, 2], slowUpload⟩ twoReads =
        some u ∧
      (∃ rest, wholeFrames u.client.accepted.length u.client.accepted =
        (u.put.frames.map (fun f => payloadOf byteCodec (byteItem f)), rest) ∧
        (rest ≠ [] → u.put.point.sendFailed = true)) ∧
      u.client.accepted = [0, 0, 0, 1, 0, 0, 0, 0, 1, 4, 0, 0, 0, 1, 5, 0, 0, 0, 1, 1] := by
  have hend : (exec (Upload.step byteCodec byteItem id) ⟨.begin [lit "f"] [1, 2], slowUpload⟩
      twoReads).map (fun u => u.client.accepted) =
        some [0, 0, 0, 1, 0, 0, 0, 0, 1, 4, 0, 0, 0, 1, 5, 0, 0, 0, 1, 1] := by
    decide
  obtain ⟨u, hrun, haccepted⟩ := Option.map_eq_some_iff.mp hend
  exact ⟨u, hrun, (upload_on_the_wire byteCodec_lawful _ _ rfl rfl hrun).1, haccepted⟩

end Offs.Put

/-! ## Downloads -/

namespace Offs.Get
open CText Commands CliClient

section Loop
variable {F : Type} (c : Codec F) (w : GetWire F) (out : Output)

/-- The loop of `cmd_get` over its connection; `none` while the socket keeps it waiting.  Every
frame takes some bytes, so their number is enough fuel. -/
def receiveOver : Nat → Nat → Bool → List UInt8 → Client → Option (Stream × Client)
  | 0, _, _, _, _ => none
  | fuel + 1, k, shortWrite, taken, client =>
    (recvFrame c client).bind fun (response, client) =>
      match response with
      | none => some (⟨false, false, shortWrite, taken⟩, client)
      | some response =>
        match w.getType response with
        | .getData =>
          match w.payload response with
          | some data =>
            let written := min (out.accepts k) data.length
            receiveOver fuel (k + 1) (shortWrite || written < data.length)
              (taken ++ data.take written) client
          | none => receiveOver fuel k shortWrite taken client
        | .getEnd => some (⟨true, false, shortWrite, taken⟩, client)
        | .error => some (⟨false, true, shortWrite, taken⟩, client)
        | _ => receiveOver fuel k shortWrite taken client

end Loop

section Refinement
variable {F : Type} {c : Codec F} {w : GetWire F} {out : Output}

/-- A call that returns an item has found a whole frame. -/
theorem not_incomplete_of_recvFrame {client client' : Client} {x : F}
    (h : recvFrame c client = some (some x, client')) : ¬ Incomplete client.incoming := by
  unfold recvFrame at h
  split at h
  · cases h
  · dsimp only at h
    split at h
    · cases h
    · cases h
    · rename_i hhead
      obtain ⟨-, hdata, hrest, -⟩ := recvAll_done hhead
      rw [hdata, hrest] at h
      split at h
      · cases h
      · split at h
        · cases h
        · cases h
        · rename_i hbody
          obtain ⟨hlen, -⟩ := recvAll_done hbody
          rw [List.length_drop] at hlen
          unfold Incomplete
          intro hshort
          have hfour : 4 ≤ client.incoming.length := (recvAll_done hhead).1
          omega

/-- The stream comes to a GET_END after `data`, before any error. -/
def Reaches (w : GetWire F) (frames data : List F) (last : F) (later : List F) : Prop :=
  frames = data ++ last :: later ∧ w.getType last = .getEnd ∧
    ∀ f ∈ data, w.getType f ≠ .error ∧ w.getType f ≠ .getEnd

theorem Reaches.cons {frames data later : List F} {f last : F} (herror : w.getType f ≠ .error)
    (hend : w.getType f ≠ .getEnd) (h : Reaches w frames data last later) :
    Reaches w (f :: frames) (f :: data) last later := by
  obtain ⟨rfl, hlast, hbefore⟩ := h
  refine ⟨rfl, hlast, fun g hg => ?_⟩
  rcases List.mem_cons.mp hg with rfl | hg
  · exact ⟨herror, hend⟩
  · exact hbefore g hg

/-- A frame that is neither a chunk nor an end is passed over. -/
theorem receive_cons_other {f : F} {frames : List F} {k : Nat} {shortWrite : Bool}
    {taken : List UInt8} (hdata : w.getType f ≠ .getData) (hend : w.getType f ≠ .getEnd)
    (herror : w.getType f ≠ .error) :
    receive w out k shortWrite taken (f :: frames) = receive w out k shortWrite taken frames := by
  rw [receive]
  split <;> first | contradiction | rfl

/-- **A loop that has seen the end has done what the frames before it ask for**, and stands
after it. -/
theorem receiveOver_sawEnd (hc : c.Lawful) {frames : List F} {rest : List UInt8}
    (hframes : ∀ x ∈ frames, Framable c x) (hrest : Incomplete rest) {fuel k : Nat}
    {shortWrite : Bool} {taken : List UInt8} {client client' : Client} {s : Stream}
    (hin : client.incoming = wire c frames ++ rest)
    (h : receiveOver c w out fuel k shortWrite taken client = some (s, client'))
    (hend : s.sawEnd = true) :
    ∃ data last later, Reaches w frames data last later ∧
      client'.incoming = wire c later ++ rest ∧
      s = receive w out k shortWrite taken (data ++ [last]) := by
  induction frames generalizing fuel k shortWrite taken client with
  | nil =>
    cases fuel with
    | zero => cases h
    | succ fuel =>
      simp only [receiveOver, Option.bind_eq_some_iff, Prod.exists] at h
      obtain ⟨response, next, hrecv, h⟩ := h
      cases response with
      | none =>
        cases h
        cases hend
      | some x =>
        refine absurd ?_ (not_incomplete_of_recvFrame hrecv)
        rw [hin]
        exact hrest
  | cons f frames ih =>
    have htail : ∀ x ∈ frames, Framable c x := fun x hx => hframes x (List.mem_cons_of_mem f hx)
    cases fuel with
    | zero => cases h
    | succ fuel =>
      simp only [receiveOver, Option.bind_eq_some_iff, Prod.exists] at h
      obtain ⟨response, next, hrecv, h⟩ := h
      cases response with
      | none =>
        cases h
        cases hend
      | some x =>
        obtain ⟨hser, -, hcap⟩ := (hframes f List.mem_cons_self).payload
        rw [wire_cons, List.append_assoc] at hin
        obtain ⟨hload, hnext⟩ :=
          recvFrame_item hin (Nat.lt_of_le_of_lt hcap (by decide)) hrecv
        obtain rfl : f = x := Option.some.inj ((hc.load_serialize f _ hser).symm.trans hload)
        dsimp only at h
        split at h
        · rename_i htype
          have herror : w.getType f ≠ .error := by simp [htype]
          have hnotEnd : w.getType f ≠ .getEnd := by simp [htype]
          split at h
          · rename_i data hpayload
            obtain ⟨data', last, later, hreaches, hlater, hs⟩ := ih htail hnext h
            refine ⟨f :: data', last, later, hreaches.cons herror hnotEnd, hlater, ?_⟩
            rw [hs, List.cons_append, receive]
            simp only [htype, hpayload]
          · rename_i hpayload
            obtain ⟨data', last, later, hreaches, hlater, hs⟩ := ih htail hnext h
            refine ⟨f :: data', last, later, hreaches.cons herror hnotEnd, hlater, ?_⟩
            rw [hs, List.cons_append, receive]
            simp only [htype, hpayload]
        · rename_i htype
          cases h
          refine ⟨[], f, frames, ⟨rfl, htype, by simp⟩, hnext, ?_⟩
          simp [receive, htype]
        · cases h
          cases hend
        · rename_i hdata hnotEnd herror
          obtain ⟨data', last, later, hreaches, hlater, hs⟩ := ih htail hnext h
          refine ⟨f :: data', last, later, hreaches.cons herror hnotEnd, hlater, ?_⟩
          rw [hs, List.cons_append, receive_cons_other hdata hnotEnd herror]

/-- The stream is brought to its end by one of its frames. -/
def Terminated (w : GetWire F) (frames : List F) : Prop :=
  ∃ f ∈ frames, w.getType f = .getEnd ∨ w.getType f = .error

theorem Terminated.tail {f : F} {frames : List F} (h : Terminated w (f :: frames))
    (hend : w.getType f ≠ .getEnd) (herror : w.getType f ≠ .error) : Terminated w frames := by
  obtain ⟨g, hg, htype⟩ := h
  rcases List.mem_cons.mp hg with rfl | hg
  · rcases htype with htype | htype
    · exact absurd htype hend
    · exact absurd htype herror
  · exact ⟨g, hg, htype⟩

/-- **Over a patient socket the loop returns what the frames ask for.** -/
theorem receiveOver_patient (hc : c.Lawful) {frames : List F} {rest : List UInt8}
    (hframes : ∀ x ∈ frames, Framable c x) {k : Nat} {shortWrite : Bool} {taken : List UInt8}
    {client : Client} (hk : client.connected = true)
    (hin : client.incoming = wire c frames ++ rest) (hp : Patient 0 client.receives)
    (hprogress : (wire c frames).length ≤ progress client.receives) (hend : Terminated w frames) :
    ∃ client', receiveOver c w out frames.length k shortWrite taken client =
      some (receive w out k shortWrite taken frames, client') := by
  induction frames generalizing k shortWrite taken client with
  | nil =>
    obtain ⟨f, hf, -⟩ := hend
    cases hf
  | cons f frames ih =>
    obtain ⟨hser, hpos, hcap⟩ := (hframes f List.mem_cons_self).payload
    have hload : c.load (payloadOf c f) = some f := hc.load_serialize f _ hser
    rw [wire_cons, List.append_assoc] at hin
    rw [wire_cons, List.length_append] at hprogress
    obtain ⟨next, hrecv, hnk, hnin, hnp, hleft⟩ :=
      (recvFrame_patient (c := c) hk hin hpos hcap hp).2 (by omega)
    rw [hload] at hrecv
    have htail : ∀ x ∈ frames, Framable c x := fun x hx => hframes x (List.mem_cons_of_mem f hx)
    have hroom : (wire c frames).length ≤ progress next.receives := by omega
    simp only [List.length_cons, receiveOver, hrecv, Option.bind_some]
    by_cases hdata : w.getType f = .getData
    · have hrest := hend.tail (by simp [hdata]) (by simp [hdata])
      rcases hpayload : w.payload f with _ | chunk
      · simp only [receive, hdata, hpayload]
        exact ih htail hnk hnin hnp hroom hrest
      · simp only [receive, hdata, hpayload]
        exact ih htail hnk hnin hnp hroom hrest
    by_cases hgetEnd : w.getType f = .getEnd
    · simp [receive, hgetEnd]
    by_cases herror : w.getType f = .error
    · simp [receive, herror]
    · rw [receive_cons_other hdata hgetEnd herror]
      obtain ⟨client', h⟩ : ∃ client', receiveOver c w out frames.length k shortWrite taken next =
          some (receive w out k shortWrite taken frames, client') :=
        ih htail hnk hnin hnp hroom (hend.tail hgetEnd herror)
      refine ⟨client', ?_⟩
      split <;> first | contradiction | exact h

/-- **A download over a socket.**  Whatever pieces the frames come in, and however the
connection ends: if the loop of `cmd_get` ends with exit code 0, it has written the payloads
of the frames before the first GET_END, all of them and in order, and stands right after that
frame.  Over a patient socket it ends, with the outcome that the frames ask for. -/
theorem download_over_socket (hc : c.Lawful) {frames : List F} {rest : List UInt8}
    (hframes : ∀ x ∈ frames, Framable c x) (hrest : Incomplete rest) {client : Client}
    (hk : client.connected = true) (hin : client.incoming = wire c frames ++ rest) :
    (∀ fuel s client', receiveOver c w out fuel 0 false [] client = some (s, client') →
      s.exit = 0 → ∃ data last later, Reaches w frames data last later ∧
        s.taken = (payloads w data).flatten ∧ client'.incoming = wire c later ++ rest) ∧
    (Patient 0 client.receives → (wire c frames).length ≤ progress client.receives →
      Terminated w frames → ∃ client', receiveOver c w out frames.length 0 false [] client =
        some (receive w out 0 false [] frames, client')) := by
  refine ⟨fun fuel s client' h hexit => ?_, fun hp hprogress hend =>
    receiveOver_patient hc hframes hk hin hp hprogress hend⟩
  obtain ⟨-, hsaw, -⟩ := Stream.exit_eq_zero.mp hexit
  obtain ⟨data, last, later, hreaches, hlater, rfl⟩ :=
    receiveOver_sawEnd hc hframes hrest hin h hsaw
  refine ⟨data, last, later, hreaches, ?_, hlater⟩
  obtain ⟨-, hlast, hbefore⟩ := hreaches
  obtain ⟨-, data', hends⟩ := receive_exit.mp hexit
  -- Both are the frames before the first GET_END.
  have hupto : Upto w.toWire .getEnd (data ++ [last]) data last := ⟨⟨[], by simp⟩, hlast, hbefore⟩
  obtain ⟨last', hupto'⟩ := hends.1
  obtain ⟨rfl, rfl⟩ := hupto'.unique hupto (by simp)
  rw [receive_taken hends, List.nil_append]

end Refinement

/-- The frames of `smallWire`, one byte each. -/
def byteWire : GetWire (Fin 24) where
  getType f := smallWire.getType f.val
  decodes f := smallWire.decodes f.val
  status f := smallWire.status f.val
  loadEnd f := smallWire.loadEnd f.val
  jsonData f := smallWire.jsonData f.val
  acknowledges command f := smallWire.acknowledges command f.val
  contentLength f := smallWire.contentLength f.val
  payload f := smallWire.payload f.val
  contentLength_isSome f h := smallWire.contentLength_isSome f.val h
  payload_isSome f h := smallWire.payload_isSome f.val h

/-- Two chunks and the end, byte by byte, and a piece of a frame after them. -/
def slowDownload : Client where
  connected := true
  sends := []
  receives := .again :: List.replicate 16 (.bytes 1)
  incoming := [0, 0, 0, 1, 1, 0, 0, 0, 1, 2, 0, 0, 0, 1, 4, 0, 0]
  accepted := []

theorem download_over_socket_slow :
    ∃ client', receiveOver byteCodec byteWire disk 3 0 false [] slowDownload =
      some (⟨true, false, false, [1, 2]⟩, client') := by
  have h := @download_over_socket _ byteCodec byteWire disk byteCodec_lawful [1, 2, 4] [0, 0]
    (fun x _ => byteCodec_framable x) (by simp [Incomplete, responseLength]) slowDownload rfl rfl
  exact h.2 (by decide) (by decide) ⟨4, by decide, .inl rfl⟩

end Offs.Get
