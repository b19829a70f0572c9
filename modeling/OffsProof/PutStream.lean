import OffsProof.CliCommands
import OffsProof.LabelledRun

/-! # The stream of `offs put`

`cmd_put` measures the file, announces that length in PUT_START, sends the file in PUT_DATA
frames of at most 1 MiB and ends with PUT_END.  It is a step function here: a label is the result
of one call (`fopen` with the measuring, an encoder, `cli_client_send_frame`, the allocation of
the buffer, `fread`, the reply), and a run is any sequence of results.

The length that is measured and what the reads then find are independent, since the file can
change while it is streamed.  A state also keeps what has been read and sent so far.

What a step does is said once (`Moves`), and everything else is derived from its cases.  The
invariant (`Inv`) has the frames that were sent by the stage of the upload, says that the
payloads and the chunk in hand are a beginning of the file, and counts: an iteration of the loop
reads at least one byte or ends the loop, so that there are no more reads than bytes announced.
A step keeps it (`inv_step`), and so every run does (`inv_run`).

An upload is then finished with the announced length just if no read came back empty
(`finished_upload_complete_iff`); and since a failed call leads to a state from which nothing is
sent (`run_of_fails`), the payloads are faithful in every state that a run reaches
(`upload_faithful`).
-/
namespace Offs.Put
open CText LabelledRun

/-! ## Arguments -/

/-- `recycle_ephemeral_e` -/
inductive RecycleEphemeral
  | none
  | commit
  | propagate
  deriving DecidableEq, Repr

structure Options where
  temporary : Bool
  recycler : Option Text
  /-- `has_tuple_size` and `tuple_size` -/
  tupleSize : Option Nat
  recycleEphemeral : RecycleEphemeral
  deriving DecidableEq, Repr

/-- The values before the arguments are read. -/
def Options.initial : Options := ⟨false, none, none, .none⟩

inductive Parsed
  | help
  | refused
  | accepted (filePath : Text) (options : Options)
  deriving DecidableEq, Repr

/-- `--tuple-size`: the whole text is a positive number. -/
def tupleSize (text : Text) : Option Nat :=
  match scan 10 text with
  | some (negative, n, []) =>
    if negative ∨ n = 0 then none else some (min n (2 ^ 63 - 1))
  | _ => none

def recycleMode (text : Text) : Option RecycleEphemeral :=
  if text = lit "commit" then some .commit
  else if text = lit "propagate" then some .propagate
  else none

/-- The loop of `cmd_put` over its arguments, and the checks after it. -/
def putArgs (filePath : Option Text) (o : Options) : List Text → Parsed
  | [] =>
    match filePath with
    | none => .refused
    | some path =>
      if o.recycleEphemeral ≠ .none ∧ o.recycler = none then .refused else .accepted path o
  | arg :: rest =>
    if arg = lit "--help" then .help
    else if arg = lit "--temporary" then putArgs filePath { o with temporary := true } rest
    else if arg = lit "--recycler" then
      match rest with
      | [] => .refused
      | url :: rest => putArgs filePath { o with recycler := some url } rest
    else if arg = lit "--recycle-ephemeral" then
      match rest with
      | [] => .refused
      | mode :: rest =>
        match recycleMode mode with
        | some mode => putArgs filePath { o with recycleEphemeral := mode } rest
        | none => .refused
    else if arg = lit "--tuple-size" then
      match rest with
      | [] => .refused
      | text :: rest =>
        match tupleSize text with
        | some n => putArgs filePath { o with tupleSize := some n } rest
        | none => .refused
    else if (lit "--").isPrefixOf arg then .refused
    -- The first argument that is no flag; those after it are ignored.
    else putArgs (filePath.or (some arg)) o rest

/-- The part of a path after its last separator. -/
def baseName (path : Text) : Text :=
  (path.reverse.takeWhile fun c => c ≠ '/' ∧ c ≠ '\\').reverse

/-! ## The machine -/

/-- `PUT_CHUNK_SIZE` -/
def chunkSize : Nat := 1024 * 1024

/-- `client_api_put_request_t`; the data is not in it. -/
structure PutRequest where
  contentType : Text
  fileName : Text
  streamLength : Nat
  options : Options
  deriving DecidableEq, Repr

inductive Frame
  | start (request : PutRequest)
  | data (payload : List UInt8)
  | finish
  deriving DecidableEq, Repr

/-- Why `cmd_put` has returned 1. -/
inductive Failure
  | usage
  | unopened
  | emptyFile
  | invalidPath
  | encodeStart
  | sendStart
  | allocChunk
  | read
  | encodeData (chunk : List UInt8)
  | sendData (chunk : List UInt8)
  | encodeEnd
  | sendEnd
  | reply
  deriving DecidableEq, Repr

/-- Where `cmd_put` stands: before which call, or how it has returned. -/
inductive Point
  | opening (path : Text) (options : Options)
  | encodingStart (request : PutRequest)
  | sendingStart (request : PutRequest)
  | allocating
  | reading
  | encodingData (chunk : List UInt8)
  | sendingData (chunk : List UInt8)
  | encodingEnd
  | sendingEnd
  | awaiting
  | failed (why : Failure)
  | helped
  | succeeded
  deriving DecidableEq, Repr

inductive Label
  /-- `fopen`, `fseek` and `ftell`: the size, if all succeed. -/
  | measured (size : Option Nat)
  | encode (ok : Bool)
  | send (ok : Bool)
  | alloc (ok : Bool)
  /-- `fread` gives `n` bytes; `error` is set if it has met a read error. -/
  | fread (n : Nat) (error : Bool)
  /-- Whether the reply is a PUT_RESPONSE that can be decoded. -/
  | reply (ok : Bool)
  deriving DecidableEq, Repr

structure St where
  point : Point
  /-- `file_size` -/
  size : Nat
  bytesSent : Nat
  /-- What is in the file from its position on. -/
  rest : List UInt8
  /-- `ferror`, which stays set. -/
  ferror : Bool
  /-- The frames sent. -/
  frames : List Frame
  /-- The chunks read. -/
  chunks : List (List UInt8)
  /-- What the calls of `fread` returned: one for each iteration of the loop. -/
  reads : List Nat
  deriving DecidableEq, Repr

/-- `cmd_put` after its arguments, with what the file will give. -/
def St.begin (argv : List Text) (content : List UInt8) : St where
  point := match putArgs none .initial argv with
    | .help => .helped
    | .refused => .failed .usage
    | .accepted path options => .opening path options
  size := 0
  bytesSent := 0
  rest := content
  ferror := false
  frames := []
  chunks := []
  reads := []

/-- `to_read` -/
def St.toRead (s : St) : Nat := min (s.size - s.bytesSent) chunkSize

/-- The head of the loop. -/
def St.loop (s : St) : St :=
  { s with point := if s.bytesSent < s.size then .reading else .encodingEnd }

/-- The end of an iteration, after a chunk has been sent. -/
def St.sent (s : St) (chunk : List UInt8) : St :=
  St.loop { s with
    bytesSent := s.bytesSent + chunk.length
    frames := s.frames ++ [.data chunk] }

section Step
variable (mimeTypeFromExtension : Text → Text)

/-- What is announced. -/
def announcement (path : Text) (options : Options) (size : Nat) : PutRequest :=
  ⟨mimeTypeFromExtension (baseName path), baseName path, size, options⟩

def step (s : St) : Label → Option St
  | .measured size =>
    match s.point, size with
    | .opening _ _, none => some { s with point := .failed .unopened }
    | .opening path options, some size =>
      if size = 0 then some { s with point := .failed .emptyFile }
      else if baseName path = [] then some { s with point := .failed .invalidPath }
      else some { s with
        size
        point := .encodingStart (announcement mimeTypeFromExtension path options size) }
    | _, _ => none
  | .encode ok =>
    match s.point with
    | .encodingStart request =>
      some { s with point := if ok then .sendingStart request else .failed .encodeStart }
    | .encodingData chunk =>
      some { s with point := if ok then .sendingData chunk else .failed (.encodeData chunk) }
    | .encodingEnd => some { s with point := if ok then .sendingEnd else .failed .encodeEnd }
    | _ => none
  | .send ok =>
    match s.point with
    | .sendingStart request =>
      if ok then some { s with point := .allocating, frames := s.frames ++ [.start request] }
      else some { s with point := .failed .sendStart }
    | .sendingData chunk =>
      if ok then some (s.sent chunk)
      else some { s with point := .failed (.sendData chunk) }
    | .sendingEnd =>
      if ok then some { s with point := .awaiting, frames := s.frames ++ [.finish] }
      else some { s with point := .failed .sendEnd }
    | _ => none
  | .alloc ok =>
    match s.point with
    | .allocating => if ok then some s.loop else some { s with point := .failed .allocChunk }
    | _ => none
  | .fread n error =>
    match s.point with
    | .reading =>
      if n ≤ s.toRead ∧ n ≤ s.rest.length then
        let s := { s with ferror := s.ferror || error, reads := s.reads ++ [n] }
        if n = 0 then
          -- At the end of the file the upload goes on to PUT_END.
          some { s with point := if s.ferror then .failed .read else .encodingEnd }
        else
          some { s with
            point := .encodingData (s.rest.take n)
            rest := s.rest.drop n
            chunks := s.chunks ++ [s.rest.take n] }
      else none
    | _ => none
  | .reply ok =>
    match s.point with
    | .awaiting => some { s with point := if ok then .succeeded else .failed .reply }
    | _ => none

end Step

/-! ## What a step does -/

/-- How far the upload has come. -/
inductive Stage
  | before
  | streaming
  | broken
  | ended
  | finished
  deriving DecidableEq, Repr

def Point.stage : Point → Stage
  | .opening _ _ | .encodingStart _ | .sendingStart _ | .helped
  | .failed .usage | .failed .unopened | .failed .emptyFile | .failed .invalidPath
  | .failed .encodeStart | .failed .sendStart => .before
  | .allocating | .reading | .encodingData _ | .sendingData _
  | .failed .allocChunk | .failed (.encodeData _) | .failed (.sendData _) => .streaming
  | .failed .read => .broken
  | .encodingEnd | .sendingEnd | .failed .encodeEnd | .failed .sendEnd => .ended
  | .awaiting | .succeeded | .failed .reply => .finished

/-- The chunk that has been read and not sent. -/
def Point.unsent : Point → List (List UInt8)
  | .encodingData chunk | .sendingData chunk
  | .failed (.encodeData chunk) | .failed (.sendData chunk) => [chunk]
  | _ => []

/-- The request that has not been sent. -/
def Point.request : Point → Option PutRequest
  | .encodingStart request | .sendingStart request => some request
  | _ => none

/-- The bytes a label says that were read, for one iteration. -/
def Label.counts : Label → List Nat
  | .fread n _ => [n]
  | _ => []

/-- The payloads of the data frames. -/
def payloads (frames : List Frame) : List (List UInt8) :=
  frames.filterMap fun
    | .data payload => some payload
    | _ => none

@[simp] theorem payloads_append (a b : List Frame) :
    payloads (a ++ b) = payloads a ++ payloads b := List.filterMap_append ..

@[simp] theorem payloads_nil : payloads [] = [] := rfl

@[simp] theorem payloads_start (request : PutRequest) (frames : List Frame) :
    payloads (.start request :: frames) = payloads frames := rfl

@[simp] theorem payloads_data (payload : List UInt8) (frames : List Frame) :
    payloads (.data payload :: frames) = payload :: payloads frames := rfl

@[simp] theorem payloads_finish (frames : List Frame) :
    payloads (.finish :: frames) = payloads frames := rfl

variable {mime : Text → Text} {s t u : St} {l : Label} {ls : List Label}

/-- **The steps**, with what each call leads to.  There is one case for each call and outcome that
differ in what they do to the state, so that a property of a step is proved in as many cases and
without a look at the step function. -/
inductive Moves (mime : Text → Text) (s : St) : Label → St → Prop
  /-- The call only decides where to go on. -/
  | turn (l : Label) (p : Point) : l.counts = [] → p.stage = s.point.stage →
      p.unsent = s.point.unsent → (∀ request ∈ p.request, request ∈ s.point.request) →
      p ≠ .reading → Moves mime s l { s with point := p }
  | measured (path : Text) (options : Options) (size : Nat) : s.point = .opening path options →
      0 < size → Moves mime s (.measured (some size)) { s with
        size
        point := .encodingStart (announcement mime path options size) }
  | started (request : PutRequest) : s.point = .sendingStart request →
      Moves mime s (.send true) { s with
        point := .allocating
        frames := s.frames ++ [.start request] }
  | entered : s.point = .allocating → Moves mime s (.alloc true) s.loop
  /-- `fread` gives nothing. -/
  | exhausted (error : Bool) : s.point = .reading →
      Moves mime s (.fread 0 error) { s with
        ferror := s.ferror || error
        reads := s.reads ++ [0]
        point := if s.ferror || error then .failed .read else .encodingEnd }
  | filled (n : Nat) (error : Bool) : s.point = .reading → 0 < n → n ≤ s.toRead →
      n ≤ s.rest.length → Moves mime s (.fread n error) { s with
        ferror := s.ferror || error
        reads := s.reads ++ [n]
        point := .encodingData (s.rest.take n)
        rest := s.rest.drop n
        chunks := s.chunks ++ [s.rest.take n] }
  | sent (chunk : List UInt8) : s.point = .sendingData chunk →
      Moves mime s (.send true) (s.sent chunk)
  | finished : s.point = .sendingEnd → Moves mime s (.send true) { s with
      point := .awaiting
      frames := s.frames ++ [.finish] }

theorem moves_turn {p q : Point} (hq : s.point = q) (hl : l.counts = [])
    (hstage : p.stage = q.stage) (hunsent : p.unsent = q.unsent)
    (hrequest : ∀ request ∈ p.request, request ∈ q.request) (hp : p ≠ .reading) :
    Moves mime s l { s with point := p } := by
  subst hq
  exact .turn l p hl hstage hunsent hrequest hp

theorem step_measured {size : Option Nat} (h : step mime s (.measured size) = some t) :
    Moves mime s (.measured size) t := by
  rcases hp : s.point with ⟨path, options⟩ | _ | _ | _ | _ | _ | _ | _ | _ | _ | _ | _ | _ <;>
    rcases size with _ | size <;> simp only [step, hp, reduceCtorEq, Option.some.injEq] at h
  · subst h
    exact moves_turn hp rfl rfl rfl (by simp [Point.request]) (by simp)
  · by_cases hzero : size = 0
    · rw [if_pos hzero] at h
      cases h
      exact moves_turn hp rfl rfl rfl (by simp [Point.request]) (by simp)
    by_cases hname : baseName path = []
    · rw [if_neg hzero, if_pos hname] at h
      cases h
      exact moves_turn hp rfl rfl rfl (by simp [Point.request]) (by simp)
    · rw [if_neg hzero, if_neg hname] at h
      cases h
      exact .measured path options size hp (Nat.pos_of_ne_zero hzero)

theorem step_encode {ok : Bool} (h : step mime s (.encode ok) = some t) :
    Moves mime s (.encode ok) t := by
  rcases hp : s.point with _ | _ | _ | _ | _ | _ | _ | _ | _ | _ | _ | _ | _ <;>
    simp only [step, hp, reduceCtorEq, Option.some.injEq] at h <;> subst h <;>
    exact moves_turn hp rfl (by cases ok <;> rfl) (by cases ok <;> rfl)
      (by cases ok <;> simp [Point.request]) (by cases ok <;> simp)

theorem step_send {ok : Bool} (h : step mime s (.send ok) = some t) :
    Moves mime s (.send ok) t := by
  rcases hp : s.point with _ | _ | request | _ | _ | _ | chunk | _ | _ | _ | _ | _ | _ <;>
    rcases ok with _ | _ <;>
    simp only [step, hp, reduceCtorEq, Option.some.injEq, if_true, if_false,
      Bool.false_eq_true] at h <;> subst h
  · exact moves_turn hp rfl rfl rfl (by simp [Point.request]) (by simp)
  · exact .started request hp
  · exact moves_turn hp rfl rfl rfl (by simp [Point.request]) (by simp)
  · exact .sent chunk hp
  · exact moves_turn hp rfl rfl rfl (by simp [Point.request]) (by simp)
  · exact .finished hp

theorem step_alloc {ok : Bool} (h : step mime s (.alloc ok) = some t) :
    Moves mime s (.alloc ok) t := by
  rcases hp : s.point with _ | _ | _ | _ | _ | _ | _ | _ | _ | _ | _ | _ | _ <;>
    rcases ok with _ | _ <;>
    simp only [step, hp, reduceCtorEq, Option.some.injEq, if_true, if_false,
      Bool.false_eq_true] at h <;> subst h
  · exact moves_turn hp rfl rfl rfl (by simp [Point.request]) (by simp)
  · exact .entered hp

theorem step_fread {n : Nat} {error : Bool} (h : step mime s (.fread n error) = some t) :
    Moves mime s (.fread n error) t := by
  rcases hp : s.point with _ | _ | _ | _ | _ | _ | _ | _ | _ | _ | _ | _ | _ <;>
    simp only [step, hp, reduceCtorEq] at h
  by_cases hn : n ≤ s.toRead ∧ n ≤ s.rest.length
  · rw [if_pos hn] at h
    rcases Nat.eq_zero_or_pos n with rfl | hpos
    · simp only [if_true, Option.some.injEq] at h
      subst h
      exact .exhausted error hp
    · rw [if_neg (by omega)] at h
      cases h
      exact .filled n error hp hpos hn.1 hn.2
  · rw [if_neg hn] at h
    cases h

theorem step_reply {ok : Bool} (h : step mime s (.reply ok) = some t) :
    Moves mime s (.reply ok) t := by
  rcases hp : s.point with _ | _ | _ | _ | _ | _ | _ | _ | _ | _ | _ | _ | _ <;>
    simp only [step, hp, reduceCtorEq, Option.some.injEq] at h
  subst h
  exact moves_turn hp rfl (by cases ok <;> rfl) (by cases ok <;> rfl)
      (by cases ok <;> simp [Point.request]) (by cases ok <;> simp)

theorem step_moves (h : step mime s l = some t) : Moves mime s l t := by
  rcases l with size | ok | ok | ok | ⟨n, error⟩ | ok
  · exact step_measured h
  · exact step_encode h
  · exact step_send h
  · exact step_alloc h
  · exact step_fread h
  · exact step_reply h

/-! ## The invariant -/

/-- **What holds at every point.**  The frames are those of the stage that the upload is in; what
has been read is what was sent and the chunk in hand, and a beginning of the file; and the
counters are what the chunks add up to. -/
structure Inv (content : List UInt8) (s : St) : Prop where
  /-- What has been read is a beginning of the file. -/
  read_eq : s.chunks.flatten ++ s.rest = content
  /-- It has been sent but for the chunk in hand. -/
  chunks_eq : s.chunks = payloads s.frames ++ s.point.unsent
  sent_eq : (payloads s.frames).flatten.length = s.bytesSent
  within : s.chunks.flatten.length ≤ s.size
  sized : ∀ chunk ∈ s.chunks, 1 ≤ chunk.length ∧ chunk.length ≤ chunkSize
  iterations : s.reads.length ≤ s.size
  before : s.point.stage = .before → s.frames = [] ∧ s.chunks = [] ∧ s.reads = []
  announced : ∀ request ∈ s.point.request, request.streamLength = s.size
  /-- While the loop goes on, every read has given a chunk. -/
  streaming : s.point.stage = .streaming → s.reads.length = s.chunks.length ∧ 0 ∉ s.reads
  reading : s.point = .reading → s.bytesSent < s.size
  /-- The frames are in order. -/
  framed : s.point.stage ≠ .before → ∃ request, request.streamLength = s.size ∧
    s.frames = .start request :: (payloads s.frames).map .data ++
      if s.point.stage = .finished then [.finish] else []
  /-- After the loop, the file has been sent whole if no read came back empty. -/
  ended : s.point.stage = .ended ∨ s.point.stage = .finished →
    (s.bytesSent = s.size ↔ 0 ∉ s.reads) ∧ (s.ferror = true → s.bytesSent = s.size)

theorem inv_begin (argv : List Text) (content : List UInt8) : Inv content (.begin argv content) := by
  have hstage : (St.begin argv content).point.stage = .before ∧
      (St.begin argv content).point.unsent = [] ∧
      (St.begin argv content).point.request = none ∧
      (St.begin argv content).point ≠ .reading := by
    unfold St.begin
    rcases putArgs none .initial argv with _ | _ | ⟨path, options⟩ <;>
      exact ⟨rfl, rfl, rfl, by simp⟩
  obtain ⟨hstage, hunsent, hrequest, hreading⟩ := hstage
  exact {
    read_eq := rfl
    chunks_eq := by rw [hunsent]; rfl
    sent_eq := rfl
    within := Nat.zero_le _
    sized := by simp [St.begin]
    iterations := Nat.zero_le _
    before := fun _ => ⟨rfl, rfl, rfl⟩
    announced := by simp [hrequest]
    streaming := by simp [hstage]
    reading := fun h => absurd h hreading
    framed := fun h => absurd hstage h
    ended := by simp [hstage] }

/-- A chunk holds a byte at least. -/
theorem length_le_flatten {chunks : List (List UInt8)} (h : ∀ chunk ∈ chunks, 1 ≤ chunk.length) :
    chunks.length ≤ chunks.flatten.length := by
  induction chunks with
  | nil => simp
  | cons chunk rest ih =>
    have hfirst : 1 ≤ chunk.length := h chunk List.mem_cons_self
    have hrest := ih fun c hc => h c (List.mem_cons_of_mem chunk hc)
    simp only [List.length_cons, List.flatten_cons, List.length_append]
    omega

variable {content : List UInt8}

theorem inv_turn {p : Point} (hs : Inv content s) (hstage : p.stage = s.point.stage)
    (hunsent : p.unsent = s.point.unsent)
    (hrequest : ∀ request ∈ p.request, request ∈ s.point.request) (hp : p ≠ .reading) :
    Inv content { s with point := p } where
  read_eq := hs.read_eq
  chunks_eq := by rw [hunsent]; exact hs.chunks_eq
  sent_eq := hs.sent_eq
  within := hs.within
  sized := hs.sized
  iterations := hs.iterations
  before := fun h => hs.before (hstage ▸ h)
  announced := fun request h => hs.announced request (hrequest request h)
  streaming := fun h => hs.streaming (hstage ▸ h)
  reading := fun h => absurd h hp
  framed := fun h => by rw [hstage]; exact hs.framed (hstage ▸ h)
  ended := fun h => hs.ended (hstage ▸ h)

theorem inv_measured (request : PutRequest) (hs : Inv content s)
    (hstage : s.point.stage = .before) :
    Inv content { s with
      size := request.streamLength
      point := .encodingStart request } := by
  obtain ⟨hframes, hchunks, hreads⟩ := hs.before hstage
  have hrest := hs.read_eq
  have hsent := hs.sent_eq
  rw [hchunks] at hrest
  rw [hframes] at hsent
  exact {
    read_eq := by rw [hchunks]; exact hrest
    chunks_eq := by rw [hchunks, hframes]; rfl
    sent_eq := by rw [hframes]; exact hsent
    within := by rw [hchunks]; exact Nat.zero_le _
    sized := by simp [hchunks]
    iterations := by rw [hreads]; exact Nat.zero_le _
    before := fun _ => ⟨hframes, hchunks, hreads⟩
    announced := by simp [Point.request]
    streaming := by simp [Point.stage]
    reading := by simp
    framed := by simp [Point.stage]
    ended := by simp [Point.stage] }

theorem inv_started {request : PutRequest} (hs : Inv content s)
    (hp : s.point = .sendingStart request) :
    Inv content { s with point := .allocating, frames := s.frames ++ [.start request] } := by
  obtain ⟨hframes, hchunks, hreads⟩ := hs.before (by rw [hp]; rfl)
  have hlength : request.streamLength = s.size := hs.announced request (by simp [hp, Point.request])
  exact {
    read_eq := hs.read_eq
    chunks_eq := by rw [hchunks, hframes]; rfl
    sent_eq := by simpa using hs.sent_eq
    within := hs.within
    sized := hs.sized
    iterations := hs.iterations
    before := by simp [Point.stage]
    announced := by simp [Point.request]
    streaming := by simp [hchunks, hreads]
    reading := by simp
    framed := fun _ => ⟨request, hlength, by simp [hframes, Point.stage]⟩
    ended := by simp [Point.stage] }

/-- A turn away from the loop or back to it, when what has been read has been sent. -/
theorem inv_advance {p : Point} {ferror : Bool} {reads : List Nat} (hs : Inv content s)
    (hstage : s.point.stage = .streaming) (hunsent : s.point.unsent = [])
    (hturn : p.unsent = [] ∧ p.request = none) (hp : p.stage ≠ .before ∧ p.stage ≠ .finished)
    (hreads : reads.length ≤ s.size)
    (hstreaming : p.stage = .streaming → reads.length = s.chunks.length ∧ 0 ∉ reads)
    (hreading : p = .reading → s.bytesSent < s.size)
    (hended : p.stage = .ended →
      (s.bytesSent = s.size ↔ 0 ∉ reads) ∧ (ferror = true → s.bytesSent = s.size)) :
    Inv content { s with ferror, reads, point := p } := by
  obtain ⟨request, hrequest, hframes⟩ := hs.framed (by simp [hstage])
  rw [if_neg (by simp [hstage])] at hframes
  exact {
    read_eq := hs.read_eq
    chunks_eq := by
      rw [hturn.1, ← hunsent]
      exact hs.chunks_eq
    sent_eq := hs.sent_eq
    within := hs.within
    sized := hs.sized
    iterations := hreads
    before := fun h => absurd h hp.1
    announced := by simp [hturn.2]
    streaming := hstreaming
    reading := hreading
    framed := fun _ => ⟨request, hrequest, by rw [if_neg hp.2]; exact hframes⟩
    ended := fun h => hended (h.resolve_right hp.2) }

/-- The head of the loop. -/
theorem inv_loop (hs : Inv content s) (hstage : s.point.stage = .streaming)
    (hunsent : s.point.unsent = []) : Inv content s.loop := by
  obtain ⟨hlength, hzero⟩ := hs.streaming hstage
  have hchunks : s.chunks = payloads s.frames := by simpa [hunsent] using hs.chunks_eq
  have hle : s.bytesSent ≤ s.size := by
    rw [← hs.sent_eq, ← hchunks]
    exact hs.within
  by_cases hmore : s.bytesSent < s.size
  · rw [St.loop, if_pos hmore]
    refine inv_advance hs hstage hunsent ⟨rfl, rfl⟩ (by simp [Point.stage]) hs.iterations ?_ ?_ ?_
    · exact fun _ => ⟨hlength, hzero⟩
    · exact fun _ => hmore
    · simp [Point.stage]
  · have hall : s.bytesSent = s.size := by omega
    rw [St.loop, if_neg hmore]
    refine inv_advance hs hstage hunsent ⟨rfl, rfl⟩ (by simp [Point.stage]) hs.iterations ?_ ?_ ?_
    · simp [Point.stage]
    · simp
    · exact fun _ => ⟨⟨fun _ => hzero, fun _ => hall⟩, fun _ => hall⟩

/-- At the head of the loop there is room for one more iteration. -/
theorem reads_lt (hs : Inv content s) (hp : s.point = .reading) : s.reads.length < s.size := by
  obtain ⟨hlength, -⟩ := hs.streaming (by rw [hp]; rfl)
  have hchunks : s.chunks = payloads s.frames := by simpa [hp, Point.unsent] using hs.chunks_eq
  have hle : s.chunks.length ≤ s.chunks.flatten.length :=
    length_le_flatten fun chunk hc => (hs.sized chunk hc).1
  have hsent := hs.sent_eq
  rw [← hchunks] at hsent
  have hmore := hs.reading hp
  omega

theorem inv_exhausted {error : Bool} (hs : Inv content s) (hp : s.point = .reading) :
    Inv content { s with
      ferror := s.ferror || error
      reads := s.reads ++ [0]
      point := if s.ferror || error then .failed .read else .encodingEnd } := by
  have hstage : s.point.stage = .streaming := by rw [hp]; rfl
  have hunsent : s.point.unsent = [] := by rw [hp]; rfl
  have hreads : (s.reads ++ [0]).length ≤ s.size := by
    rw [List.length_append]
    exact reads_lt hs hp
  -- Some of what was announced has not been sent.
  have hshort : s.bytesSent ≠ s.size := Nat.ne_of_lt (hs.reading hp)
  by_cases herror : (s.ferror || error) = true
  · rw [if_pos herror]
    refine inv_advance hs hstage hunsent ⟨rfl, rfl⟩ (by simp [Point.stage]) hreads ?_ ?_ ?_ <;>
      simp [Point.stage]
  · rw [if_neg herror]
    refine inv_advance hs hstage hunsent ⟨rfl, rfl⟩ (by simp [Point.stage]) hreads ?_ ?_ ?_
    · simp [Point.stage]
    · simp
    · exact fun _ => ⟨by simpa using hshort, fun h => absurd h herror⟩

theorem inv_filled {n : Nat} {error : Bool} (hs : Inv content s) (hp : s.point = .reading)
    (hpos : 0 < n) (htoRead : n ≤ s.toRead) (hrest : n ≤ s.rest.length) :
    Inv content { s with
      ferror := s.ferror || error
      reads := s.reads ++ [n]
      point := .encodingData (s.rest.take n)
      rest := s.rest.drop n
      chunks := s.chunks ++ [s.rest.take n] } := by
  have hchunks : s.chunks = payloads s.frames := by simpa [hp, Point.unsent] using hs.chunks_eq
  obtain ⟨hlength, hzero⟩ := hs.streaming (by rw [hp]; rfl)
  obtain ⟨request, hrequest, hframes⟩ := hs.framed (by simp [hp, Point.stage])
  rw [if_neg (by simp [hp, Point.stage])] at hframes
  have htake : (s.rest.take n).length = n := List.length_take_of_le hrest
  have hroom : n ≤ s.size - s.bytesSent ∧ n ≤ chunkSize := by
    simp only [St.toRead] at htoRead
    omega
  have hsent : s.chunks.flatten.length = s.bytesSent := by rw [hchunks]; exact hs.sent_eq
  have hmore := hs.reading hp
  exact {
    read_eq := by simpa using hs.read_eq
    chunks_eq := by rw [hchunks]; rfl
    sent_eq := hs.sent_eq
    within := by
      simp only [List.flatten_append, List.flatten_singleton, List.length_append, htake]
      omega
    sized := by
      intro chunk hchunk
      rcases List.mem_append.mp hchunk with hold | hnew
      · exact hs.sized chunk hold
      · rw [List.mem_singleton.mp hnew, htake]
        exact ⟨hpos, hroom.2⟩
    iterations := by
      rw [List.length_append]
      exact reads_lt hs hp
    before := by simp [Point.stage]
    announced := by simp [Point.request]
    streaming := fun _ => ⟨by simpa using hlength, by simpa using ⟨hzero, by omega⟩⟩
    reading := by simp
    framed := fun _ => ⟨request, hrequest, by simpa [Point.stage] using hframes⟩
    ended := by simp [Point.stage] }

theorem inv_sent {chunk : List UInt8} (hs : Inv content s) (hp : s.point = .sendingData chunk) :
    Inv content (s.sent chunk) := by
  have hchunks : s.chunks = payloads s.frames ++ [chunk] := by
    simpa [hp, Point.unsent] using hs.chunks_eq
  have hstreaming := hs.streaming (by rw [hp]; rfl)
  obtain ⟨request, hrequest, hframes⟩ := hs.framed (by simp [hp, Point.stage])
  rw [if_neg (by simp [hp, Point.stage]), List.append_nil] at hframes
  have hloop : s.sent chunk = St.loop { s with
      point := .allocating
      bytesSent := s.bytesSent + chunk.length
      frames := s.frames ++ [.data chunk] } := rfl
  rw [hloop]
  refine inv_loop ?_ rfl rfl
  exact {
    read_eq := hs.read_eq
    chunks_eq := by simpa [Point.unsent] using hchunks
    sent_eq := by simpa using hs.sent_eq
    within := hs.within
    sized := hs.sized
    iterations := hs.iterations
    before := by simp [Point.stage]
    announced := by simp [Point.request]
    streaming := fun _ => hstreaming
    reading := by simp
    framed := fun _ => ⟨request, hrequest, by
      rw [payloads_append, List.map_append, ← List.cons_append, ← hframes]
      simp [Point.stage]⟩
    ended := by simp [Point.stage] }

theorem inv_finished (hs : Inv content s) (hp : s.point = .sendingEnd) :
    Inv content { s with point := .awaiting, frames := s.frames ++ [.finish] } := by
  obtain ⟨request, hrequest, hframes⟩ := hs.framed (by simp [hp, Point.stage])
  rw [if_neg (by simp [hp, Point.stage]), List.append_nil] at hframes
  exact {
    read_eq := hs.read_eq
    chunks_eq := by simpa [hp, Point.unsent] using hs.chunks_eq
    sent_eq := by simpa using hs.sent_eq
    within := hs.within
    sized := hs.sized
    iterations := hs.iterations
    before := by simp [Point.stage]
    announced := by simp [Point.request]
    streaming := by simp [Point.stage]
    reading := by simp
    framed := fun _ => ⟨request, hrequest, by
      rw [payloads_append, payloads_finish, payloads_nil, List.append_nil, ← hframes]
      rfl⟩
    ended := fun _ => hs.ended (.inl (by rw [hp]; rfl)) }

/-- **A step keeps the invariant.**  One case for each point of the upload and what may be
answered there; the frames grow by at most one, and the counters change where a chunk has been
read and where it has been sent. -/
theorem inv_step (hs : Inv content s) (h : step mime s l = some t) : Inv content t := by
  cases step_moves h with
  | turn l p _ hstage hunsent hrequest hp => exact inv_turn hs hstage hunsent hrequest hp
  | measured path options size hp _ =>
    exact inv_measured (announcement mime path options size) hs (by rw [hp]; rfl)
  | started request hp => exact inv_started hs hp
  | entered hp => exact inv_loop hs (by rw [hp]; rfl) (by rw [hp]; rfl)
  | exhausted error hp => exact inv_exhausted hs hp
  | filled n error hp hpos htoRead hrest => exact inv_filled hs hp hpos htoRead hrest
  | sent chunk hp => exact inv_sent hs hp
  | finished hp => exact inv_finished hs hp

/-- **Every run keeps it.** -/
theorem inv_run (hs : Inv content s) (hrun : exec (step mime) s ls = some t) : Inv content t :=
  exec_invariant (fun hs h => inv_step hs h) hs hrun

/-! ## Runs -/

theorem step_reads (h : step mime s l = some t) : t.reads = s.reads ++ l.counts := by
  cases step_moves h with
  | turn l p hl => rw [hl, List.append_nil]
  | measured | started | entered | sent | finished => exact (List.append_nil _).symm
  | exhausted | filled => rfl

theorem run_reads (hrun : exec (step mime) s ls = some t) :
    t.reads = s.reads ++ ls.flatMap Label.counts := by
  induction ls generalizing s with
  | nil =>
    cases hrun
    simp
  | cons l ls ih =>
    obtain ⟨m, hsm, hmt⟩ := exec_cons.mp hrun
    rw [ih hmt, step_reads hsm, List.flatMap_cons, List.append_assoc]

/-- A call that fails.  A read has failed if it gives nothing with the error indicator set. -/
def Fails (s : St) : Label → Prop
  | .measured size => size = none
  | .encode ok | .send ok | .alloc ok | .reply ok => ok = false
  | .fread n error => n = 0 ∧ (s.ferror || error) = true

/-- A failed call makes `cmd_put` return. -/
theorem step_of_fails (hl : Fails s l) (h : step mime s l = some t) :
    t.frames = s.frames ∧ ∃ why, t.point = .failed why := by
  -- Where the call is not due there is no step; where it is, the branch returns at once.
  rcases l with size | ok | ok | ok | ⟨n, error⟩ | ok
  · obtain rfl : size = none := hl
    rcases hp : s.point <;> simp only [step, hp, reduceCtorEq, Option.some.injEq] at h
    subst h
    exact ⟨rfl, _, rfl⟩
  case fread =>
    obtain ⟨rfl, herror⟩ := hl
    rcases hp : s.point <;> simp only [step, hp, reduceCtorEq] at h
    rw [if_pos ⟨Nat.zero_le _, Nat.zero_le _⟩] at h
    simp only [if_true, herror, Option.some.injEq] at h
    subst h
    exact ⟨rfl, _, rfl⟩
  all_goals
    obtain rfl : ok = false := hl
    rcases hp : s.point <;>
      simp only [step, hp, reduceCtorEq, Option.some.injEq, Bool.false_eq_true, if_false] at h <;>
      subst h <;> exact ⟨rfl, _, rfl⟩

theorem step_failed {why : Failure} (hp : s.point = .failed why) : step mime s l = none := by
  rcases l with size | ok | ok | ok | ⟨n, error⟩ | ok <;> simp [step, hp]

/-- **Nothing is sent after a failure.** -/
theorem run_of_fails {m : St} {a b : List Label} (ha : exec (step mime) s a = some m)
    (hl : Fails m l) (hrun : exec (step mime) s (a ++ l :: b) = some t) : t.frames = m.frames := by
  rw [exec_append ha] at hrun
  obtain ⟨v, hmv, hvt⟩ := exec_cons.mp hrun
  obtain ⟨hframes, why, hwhy⟩ := step_of_fails hl hmv
  rcases b with _ | ⟨k, b⟩
  · cases hvt
    exact hframes
  · obtain ⟨w, hvw, -⟩ := exec_cons.mp hvt
    rw [step_failed hwhy] at hvw
    cases hvw

/-- The frames of a state that the invariant holds in. -/
theorem frames_of_inv (hs : Inv content s) {request : PutRequest}
    (h : .start request ∈ s.frames) : request.streamLength = s.size := by
  have hstage : s.point.stage ≠ .before := by
    intro hstage
    rw [(hs.before hstage).1] at h
    cases h
  obtain ⟨announced, hlength, hframes⟩ := hs.framed hstage
  rw [hframes] at h
  have hsame : request = announced := by
    rcases List.mem_append.mp h with hdata | hfinish
    · simpa using hdata
    · split at hfinish <;> simp at hfinish
  rw [hsame, hlength]

theorem finished_of_inv (hs : Inv content s) (h : .finish ∈ s.frames) :
    s.point.stage = .finished := by
  by_contra hstage
  by_cases hbefore : s.point.stage = .before
  · rw [(hs.before hbefore).1] at h
    cases h
  · obtain ⟨request, -, hframes⟩ := hs.framed hbefore
    rw [hframes, if_neg hstage] at h
    simp at h

/-! ## Complete uploads -/

/-- **An upload is finished with the announced length just if no read came back empty.**  The
frames are PUT_START, the data and PUT_END.  The invariant (`Inv`) has the frames of every stage
and says that the bytes of the data frames are those that have been counted; once the loop is over
they are all that was announced just if no read gave nothing, which is the other way out of it. -/
theorem finished_upload_complete_iff (mime : Text → Text) (argv : List Text)
    (content : List UInt8) (ls : List Label) (t : St)
    (hrun : exec (step mime) (.begin argv content) ls = some t) (hend : .finish ∈ t.frames) :
    ∃ request, t.frames = .start request :: (payloads t.frames).map .data ++ [.finish] ∧
      ((payloads t.frames).flatten.length = request.streamLength ↔
        ∀ error, .fread 0 error ∉ ls) := by
  have ht : Inv content t := inv_run (inv_begin argv content) hrun
  have hstage := finished_of_inv ht hend
  obtain ⟨request, hlength, hframes⟩ := ht.framed (by simp [hstage])
  rw [if_pos hstage] at hframes
  refine ⟨request, hframes, ?_⟩
  have hreads : t.reads = ls.flatMap Label.counts := run_reads hrun
  rw [hlength, ht.sent_eq, (ht.ended (.inr hstage)).1, hreads]
  simp only [List.mem_flatMap, not_exists, not_and]
  constructor
  · intro h error hmem
    exact h _ hmem List.mem_cons_self
  · rintro h l hl hzero
    rcases l with size | ok | ok | ok | ⟨n, error⟩ | ok <;> simp [Label.counts] at hzero
    exact h error (hzero ▸ hl)

/-- The calls up to the head of the loop, for a file of `size` bytes. -/
def opened (size : Nat) : List Label := [.measured (some size), .encode true, .send true, .alloc true]

/-- A file of two bytes, sent in two chunks. -/
def twoReads : List Label := opened 2 ++
  [.fread 1 false, .encode true, .send true, .fread 1 false, .encode true, .send true,
    .encode true, .send true]

theorem finished_upload_complete_iff_two :
    ∃ t, exec (step id) (.begin [lit "f"] [1, 2]) twoReads = some t ∧ .finish ∈ t.frames ∧
      ∃ request, t.frames = .start request :: (payloads t.frames).map .data ++ [.finish] ∧
      ((payloads t.frames).flatten.length = request.streamLength ↔
        ∀ error, .fread 0 error ∉ twoReads) :=
  ⟨_, rfl, by decide, finished_upload_complete_iff id [lit "f"] [1, 2] twoReads _ rfl (by decide)⟩

/-- The same, but one byte is gone when the loop gets to it. -/
def shrunkRead : List Label := opened 2 ++
  [.fread 1 false, .encode true, .send true, .fread 0 false, .encode true, .send true]

/-- **A file that has become shorter is uploaded to the end**, with two bytes announced and
one sent. -/
theorem shrunk_file_finished :
    ∃ t, exec (step id) (.begin [lit "f"] [1]) shrunkRead = some t ∧
      t.frames = [.start ⟨lit "f", lit "f", 2, .initial⟩, .data [1], .finish] ∧
      (payloads t.frames).flatten.length ≠ 2 :=
  ⟨_, rfl, by decide, by decide⟩

/-! ## Faithful chunks -/

/-- **The chunks are faithful.**  In every state that a run reaches, the payloads are a
beginning of the file, and what has been read is the payloads and the one chunk that is in
hand or that could not be encoded or sent; they stay within the announced length, as the
iterations do; a payload has 1 to 1048576 bytes; after a failed call nothing more is sent;
and if a read met an error and gave bytes all the same, the upload is finished only when it
is complete. -/
theorem upload_faithful (mime : Text → Text) (argv : List Text) (content : List UInt8)
    (ls : List Label) (t : St) (hrun : exec (step mime) (.begin argv content) ls = some t) :
    (payloads t.frames).flatten <+: content ∧
    t.chunks = payloads t.frames ++ t.point.unsent ∧
    (t.frames ≠ [] → ∃ request, .start request ∈ t.frames ∧
      (payloads t.frames).flatten.length ≤ request.streamLength ∧
      (ls.flatMap Label.counts).length ≤ request.streamLength) ∧
    (∀ payload ∈ payloads t.frames, 1 ≤ payload.length ∧ payload.length ≤ 1048576) ∧
    (∀ a l b m, ls = a ++ l :: b → exec (step mime) (.begin argv content) a = some m →
      Fails m l → t.frames = m.frames) ∧
    (t.ferror = true → .finish ∈ t.frames → ∀ request, .start request ∈ t.frames →
      (payloads t.frames).flatten.length = request.streamLength) := by
  have ht : Inv content t := inv_run (inv_begin argv content) hrun
  have hread : t.chunks.flatten = (payloads t.frames).flatten ++ t.point.unsent.flatten := by
    rw [ht.chunks_eq, List.flatten_append]
  have hreads : t.reads = ls.flatMap Label.counts := run_reads hrun
  refine ⟨?_, ht.chunks_eq, ?_, ?_, ?_, ?_⟩
  · rw [← ht.read_eq, hread, List.append_assoc]
    exact List.prefix_append _ _
  · intro hframes
    have hstage : t.point.stage ≠ .before := fun hstage => hframes (ht.before hstage).1
    obtain ⟨request, hlength, hshape⟩ := ht.framed hstage
    refine ⟨request, by rw [hshape]; simp, ?_, ?_⟩
    · have hwithin := ht.within
      rw [hread, List.length_append] at hwithin
      omega
    · rw [← hreads, hlength]
      exact ht.iterations
  · intro payload hpayload
    exact ht.sized payload (by rw [ht.chunks_eq]; exact List.mem_append_left _ hpayload)
  · rintro a l b m rfl ha hl
    exact run_of_fails ha hl hrun
  · intro hferror hend request hrequest
    have hstage := finished_of_inv ht hend
    rw [frames_of_inv ht hrequest, ht.sent_eq]
    exact (ht.ended (.inr hstage)).2 hferror

/-- A run in which nothing fails. -/
theorem upload_faithful_two :
    ∃ t, exec (step id) (.begin [lit "f"] [1, 2]) twoReads = some t ∧
      (payloads t.frames).flatten <+: [1, 2] ∧ t.chunks = payloads t.frames ++ t.point.unsent :=
  have h := upload_faithful id [lit "f"] [1, 2] twoReads _ rfl
  ⟨_, rfl, h.1, h.2.1⟩

/-- The first read meets an error after one byte. -/
def erroneousRead : List Label := opened 2 ++ [.fread 1 true]

/-- **After a read error a frame is sent**, if the read has given a byte. -/
theorem frame_after_read_error :
    ∃ m t, exec (step id) (.begin [lit "f"] [1, 2]) erroneousRead = some m ∧ m.ferror = true ∧
      exec (step id) (.begin [lit "f"] [1, 2]) (erroneousRead ++ [.encode true, .send true]) =
        some t ∧ t.frames = m.frames ++ [.data [1]] :=
  ⟨_, _, rfl, by decide, rfl, by decide⟩

/-! ## The command without its bytes

`Commands.putLoop` has the numbers of bytes alone. -/

section Uploads
variable {F : Type}

/-- Chunks that are within what is left are sent one by one. -/
theorem putLoop_chunks {d : Commands.Daemon F} {frame left : Nat} {chunks : List (List UInt8)}
    (hsized : ∀ chunk ∈ chunks, 1 ≤ chunk.length) (hleft : chunks.flatten.length ≤ left)
    (hsends : ∀ k < chunks.length, d.sends (frame + k) = true) :
    Commands.putLoop d frame left (chunks.map fun chunk => .bytes chunk.length) =
      some (frame + chunks.length) := by
  induction chunks generalizing frame left with
  | nil => rfl
  | cons chunk rest ih =>
    have hfirst : 1 ≤ chunk.length := hsized chunk List.mem_cons_self
    rw [List.flatten_cons, List.length_append] at hleft
    have hsend : d.sends frame = true := hsends 0 (by simp)
    have hrest : ∀ k < rest.length, d.sends (frame + 1 + k) = true := by
      intro k hk
      rw [show frame + 1 + k = frame + (k + 1) by omega]
      exact hsends (k + 1) (by simpa using hk)
    rw [List.map_cons, Commands.putLoop, if_neg (by omega)]
    simp only [hsend, if_true]
    rw [ih (fun c hc => hsized c (List.mem_cons_of_mem chunk hc)) (by omega) hrest,
      List.length_cons]
    congr 1
    omega

/-- A file that has been announced is not empty. -/
def Announced (s : St) : Prop := (s.point.stage = .before ∧ s.point.request = none) ∨ 0 < s.size

theorem announced_step (hs : Announced s) (h : step mime s l = some t) : Announced t := by
  cases step_moves h with
  | turn l p _ hstage _ hrequest _ =>
    rcases hs with ⟨hbefore, hnone⟩ | hsize
    · refine .inl ⟨hstage.trans hbefore, Option.eq_none_iff_forall_not_mem.mpr ?_⟩
      intro request hmem
      have hold := hrequest request hmem
      rw [hnone] at hold
      cases hold
    · exact .inr hsize
  | measured path options size _ hpos => exact .inr hpos
  | started request hp | entered hp | exhausted error hp | filled n error hp _ _ _
  | sent chunk hp | finished hp =>
    rcases hs with ⟨hbefore, hnone⟩ | hsize
    · simp [hp, Point.stage, Point.request] at hbefore hnone
    · exact .inr hsize

/-- **A finished upload is one of the command.** -/
theorem uploads_of_finished {argv : List Text} {loc : Commands.Local} {d : Commands.Daemon F}
    (hrun : exec (step mime) (.begin argv content) ls = some t) (hend : .finish ∈ t.frames)
    (hsends : ∀ k < t.frames.length, d.sends k = true) (hencodes : loc.encodes = true)
    (hupload : loc.upload = ⟨true, t.size, true, true,
      (payloads t.frames).map fun chunk => .bytes chunk.length⟩) :
    Commands.uploads loc d = true := by
  have ht : Inv content t := inv_run (inv_begin argv content) hrun
  have hstage := finished_of_inv ht hend
  obtain ⟨request, hlength, hframes⟩ := ht.framed (by simp [hstage])
  rw [if_pos hstage] at hframes
  have hcount : t.frames.length = (payloads t.frames).length + 2 := by
    conv_lhs => rw [hframes]
    simp
  have hsize : 0 < t.size := by
    have hbegin : Announced (.begin argv content) := by
      refine .inl ?_
      unfold St.begin
      rcases putArgs none .initial argv with _ | _ | ⟨path, options⟩ <;> exact ⟨rfl, rfl⟩
    rcases exec_invariant (fun hs h => announced_step hs h) hbegin hrun with ⟨hbefore, -⟩ | hsize
    · rw [hstage] at hbefore
      cases hbefore
    · exact hsize
  have hpayload : ∀ payload ∈ payloads t.frames, 1 ≤ payload.length := fun payload h =>
    (ht.sized payload (by rw [ht.chunks_eq]; exact List.mem_append_left _ h)).1
  have hwithin : (payloads t.frames).flatten.length ≤ t.size := by
    have hwithin := ht.within
    rw [ht.chunks_eq, List.flatten_append, List.length_append] at hwithin
    omega
  have hloop := @putLoop_chunks F d 1 t.size (payloads t.frames) hpayload hwithin
    fun k hk => hsends (1 + k) (by omega)
  have hlast : d.sends (1 + (payloads t.frames).length) = true := hsends _ (by omega)
  have hfirst : d.sends 0 = true := hsends 0 (by omega)
  simp [Commands.uploads, hupload, hencodes, hloop, hlast, hfirst, Nat.ne_of_gt hsize]

end Uploads

end Offs.Put
