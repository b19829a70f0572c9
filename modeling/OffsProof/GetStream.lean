import OffsProof.ExitStatus

/-! # The stream of `offs get`

`cmd_get` sends its request and writes the payloads of the GET_DATA frames to the output, until a
GET_END.  The frames may be any; the connection ends where the list does.  `fwrite` takes some of
the bytes it is given, and what it has taken is on its way to the file until the output is
closed, which can fail: nothing looks at what `fclose` returns.

The loop returns 0 just if the stream comes to its end and every write is complete
(`receive_exit`), by induction over the frames; a frame that is neither a chunk nor an end, or a
chunk that cannot be decoded, is passed over.  What is in the output then is the payloads of the
chunks that could be decoded, if the output can be closed.  So the file is whole for every run
that returns 0 just if there is nothing in the stream that is passed over though it belongs to
the file, and nothing fails at the end (`download_whole_iff`).  The command without the bytes,
in `CliCommands`, returns the same (`cmdGet_exit_eq`).
-/
namespace Offs.Get
open CText Commands

/-! ## The command -/

/-- The codecs of a download. -/
structure GetWire (F : Type) extends Wire F where
  /-- `client_api_get_response_start_decode`, and its `content_length` -/
  contentLength : F → Option Nat
  /-- `client_api_get_data_decode`, and its `data` -/
  payload : F → Option (List UInt8)
  contentLength_isSome : ∀ f, getType f = .getResponseStart → (contentLength f).isSome = decodes f
  payload_isSome : ∀ f, getType f = .getData → (payload f).isSome = decodes f

inductive GetArgs
  | usage
  | help
  | get (ori : Text) (outputPath : Option Text)
  deriving DecidableEq, Repr

/-- The loop of `cmd_get` over the arguments after the first. -/
def getFlags (ori : Text) (outputPath : Option Text) : List Text → GetArgs
  | [] => .get ori outputPath
  | [arg] => if arg = lit "--help" then .help else .get ori outputPath
  | arg :: next :: rest =>
    if arg = lit "--output" then getFlags ori (some next) rest
    else if arg = lit "--help" then .help
    else getFlags ori outputPath (next :: rest)

def getArgs : List Text → GetArgs
  | [] => .usage
  | ori :: rest => getFlags ori none rest

/-- The output. -/
structure Output where
  /-- `fopen` succeeds. -/
  opens : Bool
  /-- How many bytes each `fwrite` takes at most. -/
  accepts : Nat → Nat
  /-- How many of the bytes taken are there after the output has been closed. -/
  flushed : Nat

/-- The flags after the loop, and the bytes that `fwrite` has taken. -/
structure Stream where
  sawEnd : Bool
  hadError : Bool
  shortWrite : Bool
  taken : List UInt8
  deriving DecidableEq, Repr

/-- What the command returns, and what is in the output. -/
structure Download where
  exit : Nat
  output : List UInt8
  deriving DecidableEq, Repr

section Command
variable {F : Type} (w : GetWire F) (out : Output) (loc : Local) (d : Daemon F)

/-- The loop of `cmd_get`, before write number `k`. -/
def receive (k : Nat) (shortWrite : Bool) (taken : List UInt8) : List F → Stream
  | [] => ⟨false, false, shortWrite, taken⟩
  | response :: rest =>
    match w.getType response with
    | .getData =>
      match w.payload response with
      | some data =>
        let written := min (out.accepts k) data.length
        receive (k + 1) (shortWrite || written < data.length) (taken ++ data.take written) rest
      -- A frame that cannot be decoded is passed over.
      | none => receive k shortWrite taken rest
    | .getEnd => ⟨true, false, shortWrite, taken⟩
    | .error => ⟨false, true, shortWrite, taken⟩
    | _ => receive k shortWrite taken rest

/-- The exit code after the loop. -/
def Stream.exit (s : Stream) : Nat :=
  if s.hadError then 1 else if !s.sawEnd then 1 else if s.shortWrite then 1 else 0

def cmdGet (argv : List Text) : Download :=
  match getArgs argv with
  | .usage => ⟨1, []⟩
  | .help => ⟨0, []⟩
  | .get _ outputPath =>
    match cliClientSend loc d with
    | none => ⟨1, []⟩
    | some response =>
      if w.getType response ≠ .getResponseStart then ⟨1, []⟩
      -- `contentLength response` is decoded here, and not looked at.
      else if outputPath.isSome ∧ !out.opens then ⟨1, []⟩
      else
        let s := receive w out 0 false [] d.replies.tail
        ⟨s.exit, s.taken.take out.flushed⟩

end Command

/-! ## The loop -/

section Loop
variable {F : Type} {w : GetWire F} {out : Output}

/-- The payloads that are written. -/
def payloads (w : GetWire F) (data : List F) : List (List UInt8) :=
  data.filterMap fun f => if w.getType f = .getData then w.payload f else none

/-- The writes from number `k` on are complete. -/
def Complete (out : Output) (k : Nat) (chunks : List (List UInt8)) : Prop :=
  ∀ j chunk, chunks[j]? = some chunk → chunk.length ≤ out.accepts (k + j)

theorem complete_cons {k : Nat} {chunk : List UInt8} {chunks : List (List UInt8)} :
    Complete out k (chunk :: chunks) ↔
      chunk.length ≤ out.accepts k ∧ Complete out (k + 1) chunks := by
  constructor
  · intro h
    refine ⟨by simpa using h 0 chunk rfl, fun j c hc => ?_⟩
    have hnext := h (j + 1) c (by simpa using hc)
    rwa [show k + (j + 1) = k + 1 + j by omega] at hnext
  · rintro ⟨hfirst, hrest⟩ j c hc
    rcases j with _ | j
    · obtain rfl : chunk = c := by simpa using hc
      exact hfirst
    · have hnext := hrest j c (by simpa using hc)
      rwa [show k + 1 + j = k + (j + 1) by omega] at hnext

theorem complete_nil (out : Output) (k : Nat) : Complete out k [] := by
  intro j chunk h
  cases h

/-- A frame that is not written. -/
theorem payloads_cons_passed {f : F} {data : List F}
    (h : w.getType f ≠ .getData ∨ w.payload f = none) :
    payloads w (f :: data) = payloads w data := by
  refine List.filterMap_cons_none ?_
  rcases h with htype | hpayload
  · exact if_neg htype
  · rw [hpayload, ite_self]

theorem payloads_cons_written {f : F} {data : List F} {chunk : List UInt8}
    (htype : w.getType f = .getData) (hpayload : w.payload f = some chunk) :
    payloads w (f :: data) = chunk :: payloads w data := by
  refine List.filterMap_cons_some ?_
  rw [if_pos htype, hpayload]

theorem Stream.exit_eq_zero {s : Stream} :
    s.exit = 0 ↔ s.hadError = false ∧ s.sawEnd = true ∧ s.shortWrite = false := by
  rcases s with ⟨_ | _, _ | _, _ | _, taken⟩ <;> simp [Stream.exit]

/-- The frames come to their end after `data`, with all writes from number `k` on complete. -/
def EndsAfter (w : GetWire F) (out : Output) (k : Nat) (frames data : List F) : Prop :=
  (∃ last, Upto w.toWire .getEnd frames data last) ∧ Complete out k (payloads w data)

/-- A frame before the end. -/
theorem endsAfter_cons {k : Nat} {f : F} {rest data : List F} (herror : w.getType f ≠ .error)
    (hend : w.getType f ≠ .getEnd) :
    EndsAfter w out k (f :: rest) data ↔ ∃ data', data = f :: data' ∧
      (∃ last, Upto w.toWire .getEnd rest data' last) ∧
      Complete out k (payloads w (f :: data')) := by
  constructor
  · rintro ⟨⟨last, hupto⟩, hcomplete⟩
    obtain ⟨data', rfl, hrest⟩ := (upto_cons herror hend).mp hupto
    exact ⟨data', rfl, ⟨last, hrest⟩, hcomplete⟩
  · rintro ⟨data', rfl, ⟨last, hrest⟩, hcomplete⟩
    exact ⟨⟨last, (upto_cons herror hend).mpr ⟨data', rfl, hrest⟩⟩, hcomplete⟩

/-- **The loop returns 0** just if the stream comes to its end and every write is complete. -/
theorem receive_exit {frames : List F} {k : Nat} {shortWrite : Bool} {taken : List UInt8} :
    (receive w out k shortWrite taken frames).exit = 0 ↔
      shortWrite = false ∧ ∃ data, EndsAfter w out k frames data := by
  induction frames generalizing k shortWrite taken with
  | nil => simp [receive, Stream.exit, EndsAfter, not_upto_nil]
  | cons f rest ih =>
    unfold receive
    split
    · rename_i htype
      have hcons : ∀ {data}, EndsAfter w out k (f :: rest) data ↔ _ :=
        endsAfter_cons (by simp [htype]) (by simp [htype])
      rcases hpayload : w.payload f with _ | chunk
      · simp only [ih, hcons, payloads_cons_passed (.inr hpayload)]
        simp [EndsAfter]
      · simp only [ih, hcons, payloads_cons_written htype hpayload, complete_cons,
          Bool.or_eq_false_iff, decide_eq_false_iff_not]
        constructor
        · rintro ⟨⟨hshort, hwritten⟩, data, hrest, hcomplete⟩
          exact ⟨hshort, f :: data, data, rfl, hrest, by omega, hcomplete⟩
        · rintro ⟨hshort, _, data, rfl, hrest, hfirst, hcomplete⟩
          exact ⟨⟨hshort, by omega⟩, data, hrest, hcomplete⟩
    · rename_i htype
      have hupto : Upto w.toWire .getEnd (f :: rest) [] f := (upto_of_end htype).mpr ⟨rfl, rfl⟩
      rw [Stream.exit_eq_zero]
      simp only [true_and]
      exact ⟨fun h => ⟨h, [], ⟨f, hupto⟩, complete_nil out k⟩, fun h => h.1⟩
    · rename_i htype
      simp [Stream.exit, EndsAfter, not_upto_of_error _ htype]
    · rename_i hdata hend herror
      simp only [ih, endsAfter_cons herror hend, payloads_cons_passed (.inl hdata)]
      simp [EndsAfter]

/-- What has been taken by then. -/
theorem receive_taken {frames data : List F} {k : Nat} {shortWrite : Bool} {taken : List UInt8}
    (h : EndsAfter w out k frames data) :
    (receive w out k shortWrite taken frames).taken = taken ++ (payloads w data).flatten := by
  induction frames generalizing k shortWrite taken data with
  | nil =>
    obtain ⟨⟨last, hupto⟩, -⟩ := h
    exact absurd hupto not_upto_nil
  | cons f rest ih =>
    unfold receive
    split
    · rename_i htype
      obtain ⟨data, rfl, hrest, hcomplete⟩ :=
        (endsAfter_cons (by simp [htype]) (by simp [htype])).mp h
      rcases hpayload : w.payload f with _ | chunk
      · rw [payloads_cons_passed (.inr hpayload)] at hcomplete ⊢
        exact ih ⟨hrest, hcomplete⟩
      · rw [payloads_cons_written htype hpayload] at hcomplete ⊢
        obtain ⟨hfirst, hcomplete⟩ := complete_cons.mp hcomplete
        have htake : chunk.take (min (out.accepts k) chunk.length) = chunk :=
          List.take_of_length_le (by omega)
        dsimp only
        rw [ih ⟨hrest, hcomplete⟩, htake, List.flatten_cons, List.append_assoc]
    · rename_i htype
      obtain ⟨⟨last, hupto⟩, -⟩ := h
      obtain ⟨rfl, -⟩ := (upto_of_end htype).mp hupto
      exact (List.append_nil taken).symm
    · rename_i htype
      obtain ⟨⟨last, hupto⟩, -⟩ := h
      exact absurd hupto (not_upto_of_error (by simp) htype)
    · rename_i hdata hend herror
      obtain ⟨data, rfl, hrest, hcomplete⟩ := (endsAfter_cons herror hend).mp h
      rw [payloads_cons_passed (.inl hdata)] at hcomplete ⊢
      exact ih ⟨hrest, hcomplete⟩

/-- The writes of `Commands.getLoop` from number `k` on are those of the payloads. -/
def WritesOf (loc : Local) (out : Output) (k : Nat) (chunks : List (List UInt8)) : Prop :=
  ∀ j chunk, chunks[j]? = some chunk →
    loc.writes (k + j) = decide (chunk.length ≤ out.accepts (k + j))

theorem writesOf_cons {loc : Local} {k : Nat} {chunk : List UInt8} {chunks : List (List UInt8)}
    (h : WritesOf loc out k (chunk :: chunks)) :
    loc.writes k = decide (chunk.length ≤ out.accepts k) ∧ WritesOf loc out (k + 1) chunks := by
  refine ⟨by simpa using h 0 chunk rfl, fun j c hc => ?_⟩
  have hnext := h (j + 1) c (by simpa using hc)
  rwa [show k + (j + 1) = k + 1 + j by omega] at hnext

/-- **The loop has the exit code of the loop without bytes.** -/
theorem receive_getLoop {loc : Local} {frames shown : List F} {k : Nat} {shortWrite : Bool}
    {taken : List UInt8} (h : WritesOf loc out k (payloads w frames)) :
    (receive w out k shortWrite taken frames).exit =
      (getLoop w.toWire loc k shortWrite shown frames).exit := by
  induction frames generalizing k shortWrite taken shown with
  | nil => simp [receive, getLoop, Stream.exit]
  | cons f rest ih =>
    by_cases hdata : w.getType f = .getData
    · have hdecodes := w.payload_isSome f hdata
      rcases hpayload : w.payload f with _ | chunk
      · rw [payloads_cons_passed (.inr hpayload)] at h
        rw [hpayload] at hdecodes
        simp only [receive, getLoop, hdata, hpayload, ← hdecodes, Option.isSome_none,
          Bool.false_eq_true, if_false]
        exact ih h
      · rw [payloads_cons_written hdata hpayload] at h
        obtain ⟨hwrite, h⟩ := writesOf_cons h
        have hshort : (!loc.writes k) = decide (min (out.accepts k) chunk.length < chunk.length) := by
          rw [hwrite, ← decide_not]
          exact decide_eq_decide.mpr (by omega)
        rw [hpayload] at hdecodes
        simp only [receive, getLoop, hdata, hpayload, ← hdecodes, Option.isSome_some, if_true, hshort]
        exact ih h
    by_cases hend : w.getType f = .getEnd
    · cases shortWrite <;> simp [receive, getLoop, hend, Stream.exit, Result.ok]
    by_cases herror : w.getType f = .error
    · simp [receive, getLoop, herror, Stream.exit]
    · rw [payloads_cons_passed (.inl hdata)] at h
      have hreceive : receive w out k shortWrite taken (f :: rest) =
          receive w out k shortWrite taken rest := by
        rw [receive]
        split <;> first | contradiction | rfl
      have hgetLoop : getLoop w.toWire loc k shortWrite shown (f :: rest) =
          getLoop w.toWire loc k shortWrite shown rest := by
        rw [getLoop]
        split <;> first | contradiction | rfl
      rw [hreceive, hgetLoop]
      exact ih h

end Loop

/-! ## Complete downloads -/

section Complete
variable {F : Type} (w : GetWire F) (out : Output) (loc : Local) (d : Daemon F)

/-- **A complete download**: a start, chunks and an end, all decoded, and in the output just what
they carry, as much as the start has announced.  The frames are all there is, so that nothing has
been passed over. -/
def Whole (frames : List F) (output : List UInt8) : Prop :=
  ∃ start data last, ∃ chunks : List (List UInt8), frames = start :: data ++ [last] ∧
    w.getType start = .getResponseStart ∧ w.getType last = .getEnd ∧
    (∀ f ∈ data, w.getType f = .getData) ∧ data.map w.payload = chunks.map some ∧
    output = chunks.flatten ∧ w.contentLength start = some chunks.flatten.length

/-- The daemon answers a GET with a start and a stream that comes to its end after `data`, and
every write is complete.  The request has been sent, and the output is open if it is a file. -/
def Answers (outputPath : Option Text) (start : F) (data rest : List F) : Prop :=
  (loc.encodes ∧ d.sends 0) ∧ (outputPath.isSome → out.opens = true) ∧
    w.getType start = .getResponseStart ∧
    (∀ f ∈ data, w.getType f ≠ .error ∧ w.getType f ≠ .getEnd) ∧
    (∃ last, w.getType last = .getEnd ∧ d.replies = start :: data ++ last :: rest) ∧
    Complete out 0 (payloads w data)

/-- **A stream that comes to its end is complete**: it has only chunks that can be decoded,
nothing after its end, and the length that its start gives; and what `fwrite` has taken is
in the output once that has been closed. -/
def Sound (outputPath : Option Text) : Prop :=
  ∀ start data rest, Answers w out loc d outputPath start data rest →
    (∀ f ∈ data, w.getType f = .getData ∧ w.payload f ≠ none) ∧ rest = [] ∧
    w.contentLength start = some (payloads w data).flatten.length ∧
    (payloads w data).flatten.length ≤ out.flushed

variable {w out loc d}

/-- An answer is a stream that comes to its end. -/
theorem answers_iff {outputPath : Option Text} {start : F} {data : List F} :
    (∃ rest, Answers w out loc d outputPath start data rest) ↔
      cliClientSend loc d = some start ∧ w.getType start = .getResponseStart ∧
        ¬(outputPath.isSome = true ∧ (!out.opens) = true) ∧
        EndsAfter w out 0 d.replies.tail data := by
  constructor
  · rintro ⟨rest, hsent, hopens, hstart, hbefore, ⟨last, hlast, hreplies⟩, hcomplete⟩
    refine ⟨?_, hstart, ?_, ⟨last, ?_, hlast, hbefore⟩, hcomplete⟩
    · rw [cliClientSend, if_pos hsent, hreplies]
      rfl
    · rintro ⟨hpath, hclosed⟩
      simp [hopens hpath] at hclosed
    · rw [hreplies]
      exact ⟨rest, rfl⟩
  · rintro ⟨hsend, hstart, hopens, ⟨last, ⟨rest, htail⟩, hlast, hbefore⟩, hcomplete⟩
    by_cases hsent : loc.encodes ∧ d.sends 0
    · rw [cliClientSend, if_pos hsent] at hsend
      refine ⟨rest, hsent, ?_, hstart, hbefore, ⟨last, hlast, ?_⟩, hcomplete⟩
      · intro hpath
        by_contra hclosed
        exact hopens ⟨hpath, by simpa using hclosed⟩
      · rw [← List.cons_head?_tail hsend, htail]
        rfl
    · rw [cliClientSend, if_neg hsent] at hsend
      cases hsend

/-- The command returns 0 just for such an answer. -/
theorem cmdGet_exit {argv : List Text} {ori : Text} {outputPath : Option Text}
    (hargs : getArgs argv = .get ori outputPath) :
    (cmdGet w out loc d argv).exit = 0 ↔
      ∃ start data rest, Answers w out loc d outputPath start data rest := by
  simp only [answers_iff]
  unfold cmdGet
  rw [hargs]
  rcases hsend : cliClientSend loc d with _ | response
  · simp
  · dsimp only
    by_cases hstart : w.getType response = .getResponseStart
    · rw [if_neg (not_not.mpr hstart)]
      by_cases hopens : outputPath.isSome = true ∧ (!out.opens) = true
      · simp [hopens]
      · rw [if_neg hopens, receive_exit]
        constructor
        · rintro ⟨-, data, hends⟩
          exact ⟨response, data, rfl, hstart, hopens, hends⟩
        · rintro ⟨start, data, -, -, -, hends⟩
          exact ⟨rfl, data, hends⟩
    · rw [if_pos hstart]
      simp [hstart]

theorem cmdGet_output {argv : List Text} {ori : Text} {outputPath : Option Text}
    (hargs : getArgs argv = .get ori outputPath) {start : F} {data rest : List F}
    (h : Answers w out loc d outputPath start data rest) :
    (cmdGet w out loc d argv).output = (payloads w data).flatten.take out.flushed := by
  obtain ⟨hsend, hstart, hopens, hends⟩ := answers_iff.mp ⟨rest, h⟩
  simp only [cmdGet, hargs, hsend, hstart, ne_eq, not_true_eq_false, if_false, hopens,
    receive_taken hends, List.nil_append]

/-- **The exit code is the one of the command without bytes.** -/
theorem cmdGet_exit_eq {argv : List Text} {ori : Text} {outputPath : Option Text}
    (hargs : getArgs argv = .get ori outputPath)
    (hopens : loc.outputOpens = (outputPath.isNone || out.opens))
    (hwrites : WritesOf loc out 0 (payloads w d.replies.tail)) :
    (cmdGet w out loc d argv).exit = (Commands.cmdGet w.toWire loc d).exit := by
  unfold cmdGet Commands.cmdGet
  rw [hargs]
  rcases hsend : cliClientSend loc d with _ | response
  · rfl
  · dsimp only
    by_cases hstart : w.getType response = .getResponseStart
    · rw [if_neg (not_not.mpr hstart), if_pos hstart]
      by_cases hclosed : outputPath.isSome = true ∧ (!out.opens) = true
      · have hfails : loc.outputOpens = false := by
          rw [hopens]
          rcases outputPath with _ | path
          · cases hclosed.1
          · simpa using hclosed.2
        rw [if_pos hclosed, hfails]
        rfl
      · have hworks : loc.outputOpens = true := by
          rw [hopens]
          rcases outputPath with _ | path
          · rfl
          · simpa using hclosed
        rw [if_neg hclosed, hworks]
        exact receive_getLoop hwrites
    · rw [if_pos hstart, if_neg hstart]
      rfl

/-- The payloads of chunks that can all be decoded. -/
theorem payloads_of_decoded {data : List F}
    (h : ∀ f ∈ data, w.getType f = .getData ∧ w.payload f ≠ none) :
    data.map w.payload = (payloads w data).map some := by
  induction data with
  | nil => rfl
  | cons f data ih =>
    obtain ⟨htype, hpayload⟩ := h f List.mem_cons_self
    obtain ⟨chunk, hchunk⟩ := Option.ne_none_iff_exists'.mp hpayload
    rw [payloads_cons_written htype hchunk, List.map_cons, List.map_cons, hchunk,
      ih fun g hg => h g (List.mem_cons_of_mem f hg)]

theorem decoded_of_map {data : List F} {chunks : List (List UInt8)}
    (h : data.map w.payload = chunks.map some) : ∀ f ∈ data, w.payload f ≠ none := by
  intro f hf hnone
  have hmem : w.payload f ∈ chunks.map some := h ▸ List.mem_map_of_mem hf
  rw [hnone] at hmem
  simp at hmem

/-- **A download reported as successful is complete just if every stream that comes to its end
is.**  The command returns 0 just if such a stream is sent and every write of it is complete
(`cmdGet_exit`), and what is in the output then are the payloads that could be decoded, as far as
they have been flushed (`cmdGet_output`).  That is all of the stream just if each of its frames
could be decoded, nothing comes after the end, and the lengths agree. -/
theorem download_whole_iff (argv : List Text) (ori : Text) (outputPath : Option Text)
    (hargs : getArgs argv = .get ori outputPath) :
    ((cmdGet w out loc d argv).exit = 0 → Whole w d.replies (cmdGet w out loc d argv).output) ↔
      Sound w out loc d outputPath := by
  constructor
  · intro hwhole start data rest hanswer
    obtain ⟨start', data', last', chunks, hreplies, hstart, hlast, hdata, hchunks, houtput,
      hlength⟩ := hwhole ((cmdGet_exit hargs).mpr ⟨start, data, rest, hanswer⟩)
    have houtput' := cmdGet_output hargs hanswer
    obtain ⟨-, -, -, hbefore, ⟨last, hend, hreplies'⟩, -⟩ := hanswer
    -- Both are the frames before the first GET_END.
    rw [hreplies] at hreplies'
    obtain ⟨rfl, htail⟩ := List.cons_eq_cons.mp hreplies'
    have hupto : Upto w.toWire .getEnd (data' ++ [last']) data last :=
      ⟨⟨rest, htail⟩, hend, hbefore⟩
    have hupto' : Upto w.toWire .getEnd (data' ++ [last']) data' last' :=
      ⟨⟨[], rfl⟩, hlast, fun f hf => by simp [hdata f hf]⟩
    obtain ⟨rfl, rfl⟩ := hupto.unique hupto' (by simp)
    have hdecoded : ∀ f ∈ data, w.getType f = .getData ∧ w.payload f ≠ none :=
      fun f hf => ⟨hdata f hf, decoded_of_map hchunks f hf⟩
    have hpayloads : chunks = payloads w data :=
      List.map_injective_iff.mpr (fun _ _ h => Option.some.inj h)
        (hchunks.symm.trans (payloads_of_decoded hdecoded))
    subst hpayloads
    have hrest : rest = [] := by simpa using htail
    refine ⟨hdecoded, hrest, hlength, ?_⟩
    rw [houtput'] at houtput
    have hcut := congrArg List.length houtput
    rw [List.length_take] at hcut
    omega
  · intro hsound hexit
    obtain ⟨start, data, rest, hanswer⟩ := (cmdGet_exit hargs).mp hexit
    obtain ⟨hdata, rfl, hlength, hflushed⟩ := hsound start data rest hanswer
    have houtput := cmdGet_output hargs hanswer
    obtain ⟨-, -, hstart, -, ⟨last, hlast, hreplies⟩, -⟩ := hanswer
    refine ⟨start, data, last, payloads w data, hreplies, hstart, hlast,
      fun f hf => (hdata f hf).1, payloads_of_decoded hdata, ?_, hlength⟩
    rw [houtput, List.take_of_length_le hflushed]

end Complete

/-- Frames of a download of two bytes, by their number: the start, two chunks of one byte, a
chunk that cannot be decoded, and the end. -/
def smallWire : GetWire Nat where
  getType := fun
    | 0 => .getResponseStart
    | 1 | 2 | 3 => .getData
    | _ => .getEnd
  decodes := fun f => f ≠ 3
  status := fun _ => none
  loadEnd := fun _ => none
  jsonData := fun _ => none
  acknowledges := fun _ _ => false
  contentLength := fun f => if f = 3 then none else some 2
  payload := fun f => if f = 3 then none else some [f.toUInt8]
  contentLength_isSome := by
    intro f _
    by_cases hf : f = 3 <;> simp [hf]
  payload_isSome := by
    intro f _
    by_cases hf : f = 3 <;> simp [hf]

def sends (frames : List Nat) : Daemon Nat := ⟨true, fun _ => true, frames⟩

/-- An output that takes everything. -/
def disk : Output := ⟨true, fun _ => 4096, 4096⟩

def caller : Local := soundCaller

theorem download_whole_iff_two :
    getArgs [lit "ori"] = .get (lit "ori") none ∧
    (((cmdGet smallWire disk caller (sends [0, 1, 2, 4]) [lit "ori"]).exit = 0 →
      Whole smallWire [0, 1, 2, 4]
        (cmdGet smallWire disk caller (sends [0, 1, 2, 4]) [lit "ori"]).output) ↔
      Sound smallWire disk caller (sends [0, 1, 2, 4]) none) :=
  ⟨rfl, download_whole_iff [lit "ori"] (lit "ori") none rfl⟩

/-- **A chunk that cannot be decoded is left out**, and the download is reported as
successful with one byte of two. -/
theorem lost_chunk_reported_whole :
    cmdGet smallWire disk caller (sends [0, 1, 3, 4]) [lit "ori"] = ⟨0, [1]⟩ ∧
    ¬Whole smallWire [0, 1, 3, 4] [1] := by
  refine ⟨rfl, ?_⟩
  rintro ⟨start, data, last, chunks, hframes, -, -, -, -, houtput, hlength⟩
  obtain ⟨rfl, -⟩ := List.cons_eq_cons.mp hframes
  rw [← houtput] at hlength
  cases hlength

end Offs.Get
