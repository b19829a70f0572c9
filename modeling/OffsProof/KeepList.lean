import OffsProof.CliCommands

/-! # The keep list of `offs cache gc`

The command reads the file behind `--from` into memory and hands it over in the request; the
daemon then deletes every block that no line of the list leads to.  The file is read with its
length, and any byte may stand in it.  The request has no length: `urls` is a C string.  What
`client_api_gc_request_encode` makes of it is a parameter, of which it is only assumed that it
copies the string that `urls` points to.

The buffer holds the whole file and a NUL behind it (`readGcKeepFile_text`), and the string in it
ends at the first NUL.  So what the sweep gets is the file just if there is no NUL in it
(`cString_eq_self_iff`, `keep_list_carried_iff`); with one, the lines behind it are missing, and
their blocks are deleted.  The exit status is the one of the command in `CliCommands`, which does
not look at the file (`cmdCacheGc_exit`).
-/
namespace Offs.CacheGc
open CText Commands

/-! ## Memory -/

/-- A string in memory: the bytes before the first NUL. -/
def cString (memory : List UInt8) : List UInt8 := memory.takeWhile (· != 0)

theorem cString_terminated (content : List UInt8) : cString (content ++ [0]) = cString content := by
  induction content with
  | nil => rfl
  | cons byte rest ih =>
    rcases eq_or_ne byte 0 with rfl | hbyte
    · rfl
    · simpa [cString, hbyte] using ih

theorem cString_eq_self_iff (content : List UInt8) : cString content = content ↔ 0 ∉ content := by
  induction content with
  | nil => simp [cString]
  | cons byte rest ih =>
    rcases eq_or_ne byte 0 with rfl | hbyte
    · simp [cString]
    · simpa [cString, hbyte, hbyte.symm] using ih

/-! ## Reading the file -/

/-- `CLIENT_API_GC_MAX_URLS_TEXT` -/
def maxUrlsText : Nat := 4 * 1024 * 1024

/-- The file behind `--from`. -/
structure KeepFile where
  opens : Bool
  /-- `fseek` and `ftell` succeed. -/
  measured : Bool
  /-- The buffer can be allocated. -/
  allocates : Bool
  content : List UInt8
  /-- How many bytes `fread` gets at most. -/
  readable : Nat

/-- What `_read_gc_keep_file` returns: -1, 1, 2, or 0 with the buffer. -/
inductive KeepRead
  | ioError
  | empty
  | tooLarge
  | text (buffer : List UInt8)
  deriving DecidableEq, Repr

/-- `_read_gc_keep_file` -/
def readGcKeepFile (file : KeepFile) : KeepRead :=
  if !file.opens then .ioError
  else if !file.measured then .ioError
  else if file.content.length = 0 then .empty
  else if file.content.length > maxUrlsText then .tooLarge
  else if !file.allocates then .ioError
  else
    let got := file.content.take file.readable
    if got.length ≠ file.content.length then .ioError
    else .text (got ++ [0])

/-- The buffer holds the whole file, whatever is in it, and a NUL. -/
theorem readGcKeepFile_text {file : KeepFile} {buffer : List UInt8}
    (h : readGcKeepFile file = .text buffer) :
    buffer = file.content ++ [0] ∧ 1 ≤ file.content.length ∧
      file.content.length ≤ maxUrlsText := by
  revert h
  fun_cases readGcKeepFile file <;> intro h <;> try contradiction
  rename_i hpos hcap _ got hread
  have hwhole : got = file.content :=
    (List.take_prefix file.readable file.content).eq_of_length (not_not.mp hread)
  have hbuffer : got ++ [0] = buffer := by simpa using h
  exact ⟨by rw [← hbuffer, hwhole], by omega, by omega⟩

/-! ## The command -/

/-- What the arguments ask for. -/
inductive GcArgs
  | help
  | usage
  | fromRequired
  | sweep (source : Text) (force defrag : Bool)
  deriving DecidableEq, Repr

/-- The loop of `_cmd_cache_gc` over its arguments. -/
def gcArgs (source : Option Text) (force defrag : Bool) : List Text → GcArgs
  | [] =>
    match source with
    | some path => .sweep path force defrag
    | none => .fromRequired
  | arg :: rest =>
    if arg = lit "--help" ∨ arg = lit "help" then .help
    else if arg = lit "--from" then
      match rest with
      | [] => .usage
      | path :: rest => gcArgs (some path) force defrag rest
    else if arg = lit "--force" then gcArgs source true defrag rest
    else if arg = lit "--defrag" then gcArgs source force true rest
    else .usage

/-- `client_api_gc_request_t`, with the memory that `urls` points to. -/
structure GcRequest where
  urls : List UInt8
  force : Bool
  defrag : Bool
  deriving DecidableEq, Repr

/-- What the command returns, and the request it has encoded. -/
structure Swept (F : Type) where
  exit : Nat
  request : Option F

section Command
variable {F : Type} (encode : GcRequest → Option F) (w : Wire F) (loc : Local) (d : Daemon F)

/-- `_cache_gc_apply`: the request, and what has come of it. -/
def cacheGcApply (urlsText : List UInt8) (force defrag : Bool) : Option F × Applied F :=
  let request := if d.connects then encode ⟨urlsText, force, defrag⟩ else none
  (request, cacheApply w { loc with encodes := request.isSome } d .gcResponse)

/-- `_cmd_cache_gc` -/
def cmdCacheGc (files : Text → KeepFile) (argv : List Text) : Swept F :=
  match gcArgs none false false argv with
  | .help => ⟨0, none⟩
  | .usage | .fromRequired => ⟨1, none⟩
  | .sweep path force defrag =>
    match readGcKeepFile (files path) with
    | .empty | .tooLarge | .ioError => ⟨1, none⟩
    | .text urlsText =>
      match cacheGcApply encode w loc d urlsText force defrag with
      | (request, .applied _) => ⟨0, request⟩
      | (request, .refused) => ⟨1, request⟩
      | (request, .unreachable) => ⟨1, request⟩

/-- A request is made of a file that has been accepted. -/
theorem cmdCacheGc_request {files : Text → KeepFile} {argv : List Text} {request : F}
    (h : (cmdCacheGc encode w loc d files argv).request = some request) :
    ∃ path force defrag buffer, gcArgs none false false argv = .sweep path force defrag ∧
      readGcKeepFile (files path) = .text buffer ∧
      encode ⟨buffer, force, defrag⟩ = some request := by
  rw [cmdCacheGc] at h
  rcases hargs : gcArgs none false false argv with _ | _ | _ | ⟨path, force, defrag⟩ <;>
    simp only [hargs, reduceCtorEq] at h
  rcases hread : readGcKeepFile (files path) with _ | _ | _ | buffer <;>
    simp only [hread, reduceCtorEq] at h
  refine ⟨path, force, defrag, buffer, rfl, hread, ?_⟩
  have hsent : (cacheGcApply encode w loc d buffer force defrag).1 = some request := by
    rcases happly : cacheGcApply encode w loc d buffer force defrag with ⟨sent, _ | _ | _⟩ <;>
      simpa [happly] using h
  rw [cacheGcApply] at hsent
  by_cases hconnects : d.connects
  · simpa [hconnects] using hsent
  · simp [hconnects] at hsent

/-- **The exit status is the one of the command without its file.** -/
theorem cmdCacheGc_exit (files : Text → KeepFile) {argv : List Text} {path : Text}
    {force defrag : Bool} (hargs : gcArgs none false false argv = .sweep path force defrag)
    {buffer : List UInt8} (hread : readGcKeepFile (files path) = .text buffer) :
    (cmdCacheGc encode w loc d files argv).exit =
      (Commands.cmdCacheGc w { loc with
        inputRead := true
        encodes := (cacheGcApply encode w loc d buffer force defrag).1.isSome } d).exit := by
  have happly : cacheApply w { loc with
      inputRead := true
      encodes := (cacheGcApply encode w loc d buffer force defrag).1.isSome } d .gcResponse =
      (cacheGcApply encode w loc d buffer force defrag).2 := rfl
  rw [cmdCacheGc, hargs, Commands.cmdCacheGc, happly]
  simp only [hread, if_true]
  rcases cacheGcApply encode w loc d buffer force defrag with ⟨sent, _ | _ | _⟩ <;> rfl

/-! ## What reaches the sweep -/

variable (urls : F → List UInt8)

/-- **The sweep gets the whole list just if there is no NUL in it.**  `encode` copies the string
that `urls` points to.  The file is read whole and a NUL is put after it (`readGcKeepFile_text`),
so that the string in the buffer is the content up to its first NUL, which is all of it just if it
has none. -/
theorem keep_list_carried_iff
    (hencode : ∀ req frame, encode req = some frame → urls frame = cString req.urls)
    (files : Text → KeepFile) (argv : List Text) (request : F)
    (h : (cmdCacheGc encode w loc d files argv).request = some request) :
    ∃ path force defrag, gcArgs none false false argv = .sweep path force defrag ∧
      (urls request = (files path).content ↔ 0 ∉ (files path).content) := by
  obtain ⟨path, force, defrag, buffer, hargs, hread, hrequest⟩ :=
    cmdCacheGc_request encode w loc d h
  refine ⟨path, force, defrag, hargs, ?_⟩
  obtain ⟨hbuffer, -, -⟩ := readGcKeepFile_text hread
  rw [hencode _ _ hrequest, hbuffer, cString_terminated]
  exact cString_eq_self_iff _

end Command

/-- Frames that carry a text alone, as `client_api_gc_request_encode` takes it. -/
def textFrame (req : GcRequest) : Option (List UInt8) := some (cString req.urls)

/-- Replies that say that the sweep is done. -/
def sweptWire : Wire (List UInt8) where
  getType := fun _ => .gcResponse
  decodes := fun _ => true
  status := fun _ => some .ok
  loadEnd := fun _ => none
  jsonData := fun _ => none
  acknowledges := fun _ _ => false

def sweeper : Daemon (List UInt8) where
  connects := true
  sends := fun _ => true
  replies := [[]]

def caller : Local where
  encodes := true
  inputRead := true
  upload := ⟨true, 1, true, true, [.bytes 1]⟩
  outputOpens := true
  writes := fun _ => true
  rendered := true
  lookup := fun _ _ => none
  stages := true

/-- A file that can be read. -/
def plainFile (content : List UInt8) : KeepFile := ⟨true, true, true, content, content.length⟩

/-- Two lines, `a` and `b`. -/
def twoLines : List UInt8 := [97, 10, 98, 10]

/-- The same with a NUL at the end of the first. -/
def nulLines : List UInt8 := [97, 0, 10, 98, 10]

/-- The list of two lines is carried as it is. -/
theorem keep_list_carried_iff_plain :
    (cmdCacheGc textFrame sweptWire caller sweeper (fun _ => plainFile twoLines)
      [lit "--from", lit "keep"]).request = some twoLines ∧
    ∃ path force defrag, gcArgs none false false [lit "--from", lit "keep"] =
        .sweep path force defrag ∧ (twoLines = twoLines ↔ 0 ∉ twoLines) :=
  ⟨rfl, keep_list_carried_iff textFrame sweptWire caller sweeper id
    (fun _ _ h => (Option.some.inj h).symm) (fun _ => plainFile twoLines)
    [lit "--from", lit "keep"] twoLines rfl⟩

/-- **A sweep that has lost a line.**  The file with the NUL is accepted, the command
returns 0, and the request does not have the second line. -/
theorem nul_cuts_keep_list :
    readGcKeepFile (plainFile nulLines) = .text (nulLines ++ [0]) ∧
    (cmdCacheGc textFrame sweptWire caller sweeper (fun _ => plainFile nulLines)
      [lit "--from", lit "keep"]).exit = 0 ∧
    (cmdCacheGc textFrame sweptWire caller sweeper (fun _ => plainFile nulLines)
      [lit "--from", lit "keep"]).request = some [97] ∧
    [97] ≠ nulLines ∧ (98 : UInt8) ∉ [97] :=
  ⟨by decide, rfl, rfl, by decide, by decide⟩

end Offs.CacheGc
