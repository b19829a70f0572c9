import OffsProof.Client

/-! # Framing survives any fragmentation

Sending a sequence of items frame by frame, and receiving the byte stream frame by frame, are
inverse whatever the socket does in between, as long as it is patient (`CliClient.Patient`): it
takes or gives at least one byte whenever it makes progress, and never keeps the CLI waiting past
its budget between two progresses.

The stream of a sequence of items is `wire`.  `sendFrames_accepted` follows the accepted bytes
over the calls; `recvFrame_patient` follows one receiving call, and `recvFrames_patient` a
sequence of them.  Both directions also terminate: a progress for every byte of the stream is
enough.

A receiving call first takes the four bytes of the length and then as many as they say, and both
times `_recv_all` takes exactly the next bytes of the stream.  So a call consumes one frame,
wherever the socket has cut it, and the calls one after the other consume the frames of the
stream one after the other; an induction over the items is all that is left.
-/
namespace Offs.CliClient

variable {Item : Type}

/-- The item has a serialisation of one byte up to the framer's cap.  An empty payload could be
framed, but a receiver does not take it for an item. -/
def Framable (c : Codec Item) (x : Item) : Prop :=
  ∃ payload, c.serialize x = some payload ∧ 1 ≤ payload.length ∧ payload.length ≤ maxFrameSize

/-- The serialisation of an item. -/
def payloadOf (c : Codec Item) (x : Item) : List UInt8 := (c.serialize x).getD []

/-- The frames of `items`, one after the other. -/
def wire (c : Codec Item) (items : List Item) : List UInt8 :=
  items.flatMap fun x => frame (payloadOf c x)

@[simp] theorem wire_nil (c : Codec Item) : wire c [] = [] := rfl

@[simp] theorem wire_cons (c : Codec Item) (x : Item) (xs : List Item) :
    wire c (x :: xs) = frame (payloadOf c x) ++ wire c xs := rfl

theorem Framable.payload {c : Codec Item} {x : Item} (h : Framable c x) :
    c.serialize x = some (payloadOf c x) ∧ payloadOf c x ≠ [] ∧
      (payloadOf c x).length ≤ maxFrameSize := by
  obtain ⟨payload, hser, hpos, hcap⟩ := h
  have : payloadOf c x = payload := by simp [payloadOf, hser]
  rw [this]
  exact ⟨hser, List.ne_nil_of_length_pos hpos, hcap⟩

/-! ## Sending -/

/-- For an item the framer takes, `cli_client_send_frame` is `_send_all` of its
frame. -/
theorem sendFrame_eq {c : Codec Item} (hc : c.Lawful) {k : Client} {x : Item}
    (hk : k.connected = true) (hx : Framable c x) :
    sendFrame c k x =
      (let r := sendAll k.sends 0 (frame (payloadOf c x))
       let k' := { k with sends := r.script, accepted := k.accepted ++ r.accepted }
       match r.status with
       | .done => some (.ok (), k')
       | .failed => some (.error .socket, k')
       | .waiting => none) := by
  obtain ⟨hser, hne, hcap⟩ := hx.payload
  obtain ⟨b, payload, hp⟩ := List.exists_cons_of_ne_nil hne
  have henc := hc.encode_eq _ hne hcap
  rw [hp] at hser henc ⊢
  have hframe : frame (b :: payload) ≠ [] := List.ne_nil_of_length_pos (by simp)
  unfold sendFrame
  rw [if_neg (not_not_intro hk), hser]
  dsimp only
  rw [henc]
  cases hf : frame (b :: payload) with
  | nil => exact absurd hf hframe
  | cons b' framed => rfl

/-- **The bytes the socket accepted are the frames, in order.** -/
theorem sendFrames_accepted {c : Codec Item} (hc : c.Lawful) {items : List Item} {k k' : Client}
    (hk : k.connected = true) (hx : ∀ x ∈ items, Framable c x)
    (h : sendFrames c items k = some (items.map fun _ => .ok (), k')) :
    k'.accepted = k.accepted ++ wire c items := by
  induction items generalizing k with
  | nil =>
    cases h
    simp
  | cons x xs ih =>
    simp only [sendFrames, Option.bind_eq_some_iff, Option.map_eq_some_iff, Prod.exists] at h
    obtain ⟨r, m, hm, rs, k'', hrest, heq⟩ := h
    simp only [List.map_cons, Prod.mk.injEq, List.cons.injEq] at heq
    obtain ⟨⟨rfl, rfl⟩, rfl⟩ := heq
    rw [sendFrame_eq hc hk (hx x List.mem_cons_self)] at hm
    dsimp only at hm
    split at hm
    · rename_i hdone
      cases hm
      rw [ih (by exact hk) (fun y hy => hx y (List.mem_cons_of_mem x hy)) hrest, sendAll_done hdone,
        wire_cons, List.append_assoc]
    · cases hm
    · cases hm

/-- **Over a patient socket every frame is sent**, given a progress for each byte. -/
theorem sendFrames_patient {c : Codec Item} (hc : c.Lawful) {items : List Item} {k : Client}
    (hk : k.connected = true) (hx : ∀ x ∈ items, Framable c x) (hp : Patient 0 k.sends)
    (hlen : (wire c items).length ≤ progress k.sends) :
    ∃ k', sendFrames c items k = some (items.map fun _ => .ok (), k') := by
  induction items generalizing k with
  | nil => exact ⟨k, rfl⟩
  | cons x xs ih =>
    rw [wire_cons, List.length_append] at hlen
    obtain ⟨-, hpatient, hdone⟩ := sendAll_patient (frame (payloadOf c x)) hp
    obtain ⟨hstatus, hleft⟩ := hdone (by omega)
    obtain ⟨k', hk'⟩ := ih (k := { k with
        sends := (sendAll k.sends 0 (frame (payloadOf c x))).script
        accepted := k.accepted ++ (sendAll k.sends 0 (frame (payloadOf c x))).accepted })
      hk (fun y hy => hx y (List.mem_cons_of_mem x hy)) hpatient (by dsimp only; omega)
    refine ⟨k', ?_⟩
    simp [sendFrames, sendFrame_eq hc hk (hx x List.mem_cons_self), hstatus, hk']

/-! ## Receiving -/

theorem recvAll_waiting {script : List Answer} (incoming : List UInt8) {need : Nat}
    (hlen : need ≤ incoming.length) (hp : Patient 0 script)
    (h : readsThrough script 0 need = none) : (recvAll script incoming 0 need).status = .waiting := by
  cases hstatus : (recvAll script incoming 0 need).status with
  | waiting => rfl
  | failed => exact absurd hstatus (recvAll_patient hlen hp)
  | done =>
    have := (recvAll_done hstatus).2.2.2
    rw [h] at this
    cases this

/-- A call that is kept waiting has not returned. -/
theorem recvFrame_waiting {c : Codec Item} {k : Client} {payload rest : List UInt8}
    (hk : k.connected = true) (hin : k.incoming = frame payload ++ rest) (hpos : payload ≠ [])
    (hlen : payload.length ≤ maxResponseSize) (hp : Patient 0 k.receives)
    (h : ∀ s, readsThrough k.receives 0 4 = some s → readsThrough s 0 payload.length = none) :
    recvFrame c k = none := by
  unfold recvFrame
  cases hhead : readsThrough k.receives 0 4 with
  | none =>
    have := recvAll_waiting (frame payload ++ rest) (by simp; omega) hp hhead
    simp [hk, hin, this]
  | some s =>
    have hhead' := recvAll_eq (frame payload ++ rest) (by simp; omega) hhead
    have hbody := recvAll_waiting (payload ++ rest) (by simp)
      ((readsThrough_patient 4 hp).1 s hhead) (h s hhead)
    have hne : ¬ (payload.length = 0 ∨ payload.length > maxResponseSize) := by
      have := List.length_pos_iff.mpr hpos
      omega
    rw [take_four_frame, drop_four_frame] at hhead'
    simp only [hk, hin, hhead', responseLength_bytes (Nat.lt_of_le_of_lt hlen (by decide)),
      if_neg hne, hbody, not_true_eq_false, if_false]

/-- One call over a patient socket, on a stream that starts with a frame: unless the
socket keeps it waiting it takes exactly that frame, and a progress for each byte of
the frame is enough. -/
theorem recvFrame_patient {c : Codec Item} {k : Client} {payload rest : List UInt8}
    (hk : k.connected = true) (hin : k.incoming = frame payload ++ rest) (hpos : payload ≠ [])
    (hlen : payload.length ≤ maxFrameSize) (hp : Patient 0 k.receives) :
    (∀ r k', recvFrame c k = some (r, k') →
      r = c.load payload ∧ k'.connected = true ∧ k'.incoming = rest ∧ Patient 0 k'.receives) ∧
    ((frame payload).length ≤ progress k.receives →
      ∃ k', recvFrame c k = some (c.load payload, k') ∧ k'.connected = true ∧
        k'.incoming = rest ∧ Patient 0 k'.receives ∧
        progress k.receives ≤ progress k'.receives + (frame payload).length) := by
  have hmax : payload.length ≤ maxResponseSize := Nat.le_trans hlen (by decide)
  obtain ⟨hpat4, hprog4⟩ := readsThrough_patient 4 hp
  refine ⟨?_, ?_⟩
  · intro r k' h
    by_cases hthrough : ∃ s s', readsThrough k.receives 0 4 = some s ∧
        readsThrough s 0 payload.length = some s'
    · obtain ⟨s, s', hhead, hbody⟩ := hthrough
      rw [recvFrame_eq hk hin hpos hmax hhead hbody] at h
      cases h
      exact ⟨rfl, hk, rfl, (readsThrough_patient _ (hpat4 s hhead)).1 s' hbody⟩
    · have hnone : ∀ s, readsThrough k.receives 0 4 = some s →
          readsThrough s 0 payload.length = none := by
        intro s hs
        by_contra hbody
        obtain ⟨s', hs'⟩ := Option.ne_none_iff_exists'.mp hbody
        exact hthrough ⟨s, s', hs, hs'⟩
      rw [recvFrame_waiting hk hin hpos hmax hp hnone] at h
      cases h
  · intro hprog
    rw [length_frame] at hprog ⊢
    obtain ⟨s, hhead, hs⟩ := hprog4 (by omega)
    obtain ⟨hpat, hbody⟩ := readsThrough_patient payload.length (hpat4 s hhead)
    obtain ⟨s', hs', hle⟩ := hbody (by omega)
    exact ⟨_, recvFrame_eq hk hin hpos hmax hhead hs', hk, rfl, hpat s' hs',
      by dsimp only; omega⟩

/-- A sequence of calls over a patient socket, on the stream of `items`. -/
theorem recvFrames_patient {c : Codec Item} (hc : c.Lawful) {items : List Item} {k : Client}
    {rest : List UInt8} (hk : k.connected = true) (hx : ∀ x ∈ items, Framable c x)
    (hin : k.incoming = wire c items ++ rest) (hp : Patient 0 k.receives) :
    (∀ rs k', recvFrames c items.length k = some (rs, k') →
      rs = items.map some ∧ k'.incoming = rest) ∧
    ((wire c items).length ≤ progress k.receives →
      ∃ k', recvFrames c items.length k = some (items.map some, k')) := by
  induction items generalizing k with
  | nil =>
    refine ⟨fun rs k' h => ?_, fun _ => ⟨k, rfl⟩⟩
    cases h
    exact ⟨rfl, by simpa using hin⟩
  | cons x xs ih =>
    obtain ⟨hser, hpos, hcap⟩ := (hx x List.mem_cons_self).payload
    have hload : c.load (payloadOf c x) = some x := hc.load_serialize x _ hser
    have hin' : k.incoming = frame (payloadOf c x) ++ (wire c xs ++ rest) := by
      rw [hin, wire_cons, List.append_assoc]
    have hxs : ∀ y ∈ xs, Framable c y := fun y hy => hx y (List.mem_cons_of_mem x hy)
    obtain ⟨hsafe, hlive⟩ := recvFrame_patient (c := c) hk hin' hpos hcap hp
    refine ⟨fun rs k' h => ?_, fun hprog => ?_⟩
    · simp only [List.length_cons, recvFrames, Option.bind_eq_some_iff, Option.map_eq_some_iff,
        Prod.exists, Prod.mk.injEq] at h
      obtain ⟨r, m, hm, rs', k'', hrest, rfl, rfl⟩ := h
      obtain ⟨rfl, hmk, hmin, hmp⟩ := hsafe r m hm
      obtain ⟨rfl, hfinal⟩ := (ih hmk hxs hmin hmp).1 rs' k'' hrest
      exact ⟨by rw [hload]; rfl, hfinal⟩
    · rw [wire_cons, List.length_append] at hprog
      obtain ⟨m, hm, hmk, hmin, hmp, hleft⟩ := hlive (by omega)
      obtain ⟨k', hk'⟩ := (ih hmk hxs hmin hmp).2 (by omega)
      exact ⟨k', by simp [recvFrames, hm, hk', hload]⟩

/-! ## The round trip -/

/-- **Framing is the identity on sequences of items, under every fragmentation.**
If `cli_client_send_frame` returns 0 for each item, the socket has accepted exactly
the frames, in order; over a patient socket it does return 0.  And if these bytes
come in over a patient socket, in whatever pieces, then as many calls of
`cli_client_recv_frame` give exactly these items: a call that returns gives the next
item, and with a progress for each byte every call returns. -/
theorem framing_round_trip {c : Codec Item} (hc : c.Lawful) {items : List Item}
    (hx : ∀ x ∈ items, Framable c x) :
    (∀ k k', k.connected = true → sendFrames c items k = some (items.map fun _ => .ok (), k') →
      k'.accepted = k.accepted ++ wire c items) ∧
    (∀ k, k.connected = true → Patient 0 k.sends → (wire c items).length ≤ progress k.sends →
      ∃ k', sendFrames c items k = some (items.map fun _ => .ok (), k')) ∧
    (∀ k rest, k.connected = true → k.incoming = wire c items ++ rest → Patient 0 k.receives →
      (∀ rs k', recvFrames c items.length k = some (rs, k') →
        rs = items.map some ∧ k'.incoming = rest) ∧
      ((wire c items).length ≤ progress k.receives →
        ∃ k', recvFrames c items.length k = some (items.map some, k'))) :=
  ⟨fun _ _ hk h => sendFrames_accepted hc hk hx h,
    fun _ hk hp hlen => sendFrames_patient hc hk hx hp hlen,
    fun _ _ hk hin hp => recvFrames_patient hc hk hx hin hp⟩

/-- Small natural numbers as items of one byte, framed as liboffs does. -/
def byteCodec : Codec (Fin 24) where
  serialize x := some [UInt8.ofNat x]
  encode payload := if payload.length ≤ maxFrameSize then some (frame payload) else none
  load
    | [b] => if h : b.toNat < 24 then some ⟨b.toNat, h⟩ else none
    | _ => none

theorem byteCodec_lawful : byteCodec.Lawful where
  encode_eq payload _ h := by simp [byteCodec, h]
  encode_cap payload h := by simp [byteCodec, Nat.not_le.mpr h]
  load_serialize := by
    intro x payload h
    cases h
    have hx : (UInt8.ofNat x.val).toNat = x.val := by
      rw [UInt8.toNat_ofNat']
      exact Nat.mod_eq_of_lt (by omega)
    simp [byteCodec, hx]

theorem byteCodec_framable (x : Fin 24) : Framable byteCodec x :=
  ⟨_, rfl, Nat.le_refl 1, by simp [maxFrameSize]⟩

/-- The theorem on a stream: the two frames of `[3, 5]` come in with the length
prefix cut in two, an interruption and a wait, and the two calls give `3` and `5`. -/
theorem framing_round_trip_split :
    ∃ k', recvFrames byteCodec 2
      { connected := true
        sends := []
        receives := [.bytes 2, .interrupted, .bytes 1, .again, .bytes 9, .bytes 1, .bytes 3, .bytes 1,
          .bytes 1, .bytes 1, .bytes 1, .bytes 1]
        incoming := [0, 0, 0, 1, 3, 0, 0, 0, 1, 5]
        accepted := [] } = some ([some 3, some 5], k') :=
  ((@framing_round_trip _ byteCodec byteCodec_lawful [3, 5] fun x _ => byteCodec_framable x).2.2
    _ [] rfl rfl (by decide)).2 (by decide)

end Offs.CliClient
