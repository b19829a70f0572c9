import OffsProof.BinaryRounding
import OffsProof.CachePaths
import OffsProof.CliCommands
import OffsProof.SizeText

/-! # `offs cache size`

The new capacity goes to the daemon or, if it cannot be reached, into the pending document that
the next start reads.  The request has it as a 64-bit integer and the document as a JSON number,
which for cJSON is a `double`: it is rounded to 53 significant bits on the way.

A number is printed and read back exactly, so the one rounding is that of the conversion to a
`double`.  The reader casts it to 64 bits, and that is undefined for 2^64, to which the largest
sizes are rounded; for these nothing is said about the value, but it is not a size with 53
significant bits either.  What comes back is the size itself exactly if there was nothing to
round (`toUnsigned_toDouble_iff`).

The two ways are two runs of one command, against a daemon that can be reached and one that
cannot.  Both parse the same text, so that the request and the document have the same number, and
they agree just if it has 53 significant bits (`resize_agrees_iff`).  The exit status is the one
of the command in `CliCommands`, which does not look at arguments (`cmdCacheSize_exit`).
-/
namespace Offs.CacheSize
open CText CJson Commands CliCache

variable {F Doc : Type}

/-- `(double)value` -/
def toDouble (n : UInt64) : Double := .finite (Binary.round 53 n.toNat : Nat)

/-- What the arguments ask for. -/
inductive SizeArgs
  | help
  | usage
  | resize (valueText : Text) (configDirFlag : Option Text)
  deriving DecidableEq, Repr

/-- The loop of `_cmd_cache_size` over its arguments. -/
def sizeArgs (valueText configDirFlag : Option Text) : List Text → SizeArgs
  | [] =>
    match valueText with
    | some text => .resize text configDirFlag
    | none => .usage
  | arg :: rest =>
    if arg = lit "--help" ∨ arg = lit "help" then .help
    else if arg = lit "--config-dir" then
      match rest with
      | [] => .usage
      | dir :: rest => sizeArgs valueText (some dir) rest
    else if arg.head? = some '-' ∨ valueText ≠ none then .usage
    else sizeArgs (some arg) configDirFlag rest

/-- `client_api_cache_resize_request_t` -/
structure ResizeRequest where
  capacityBytes : UInt64
  deriving DecidableEq, Repr

/-- `_stage_number`: the document for `config_pending_save`. -/
def stageNumber (field : Text) (value : UInt64) : Json :=
  .object [(field, .number (toDouble value))]

/-- What the command returns, the request that it has given to the encoder, and what it has
staged where. -/
structure Resized where
  exit : Nat
  request : Option ResizeRequest
  staged : Option (Text × Json)

/-- `_cache_size_apply`: the request that is given to the encoder once the daemon is connected,
and what has come of it.  Where it cannot be encoded no frame goes out, and the outcome is
`refused`. -/
def cacheSizeApply (w : Wire F) (loc : Local) (d : Daemon F) (bytes : UInt64) :
    Option ResizeRequest × Applied F :=
  (if d.connects then some ⟨bytes⟩ else none, cacheApply w loc d .cacheResizeResponse)

/-- `_cmd_cache_size` -/
def cmdCacheSize (w : Wire F) (loc : Local) (d : Daemon F) (h : Daemon.Host)
    (files : Daemon.Files Doc) (argv : List Text) : Resized :=
  match sizeArgs none none argv with
  | .help => ⟨0, none, none⟩
  | .usage => ⟨1, none, none⟩
  | .resize valueText configDirFlag =>
    let (parsed, bytes) := parseSizeBytes (some valueText) 0
    if parsed ≠ 0 then ⟨1, none, none⟩
    else
      match cacheSizeApply w loc d bytes with
      | (request, .applied _) => ⟨0, request, none⟩
      | (request, .refused) => ⟨1, request, none⟩
      | (request, .unreachable) =>
        match resolveConfigDir h files configDirFlag with
        | some configDir =>
          if loc.stages then
            ⟨0, request, some (configDir, stageNumber (lit "max_capacity_bytes") bytes)⟩
          else ⟨1, request, none⟩
        | none => ⟨1, request, none⟩

/-! ## The next start -/

/-- `config_pending_save`: a number that is staged stands in the document afterwards,
whatever was pending. -/
structure PendingSave where
  merge : Option Json → Json → Json
  getObjectItem_merge : ∀ pending doc field d, doc.getObjectItem field = some (.number d) →
    (merge pending doc).getObjectItem field = some (.number d)

/-- The `max_capacity_bytes` that is read from a pending document. -/
def pendingCapacity (undefined : Double → Nat) (doc : Json) : Option UInt64 :=
  ((doc.getObjectItem (lit "max_capacity_bytes")).bind Json.asNumber).map fun d =>
    UInt64.ofNat (d.toUnsigned 64 undefined)

/-- The staged number is what is read back, as far as the cast is defined. -/
theorem pendingCapacity_merge (lib : PendingSave) (undefined : Double → Nat)
    (pending : Option Json) (bytes : UInt64) :
    pendingCapacity undefined (lib.merge pending (stageNumber (lit "max_capacity_bytes") bytes)) =
      some (UInt64.ofNat ((toDouble bytes).toUnsigned 64 undefined)) := by
  have hitem : (stageNumber (lit "max_capacity_bytes") bytes).getObjectItem
      (lit "max_capacity_bytes") = some (.number (toDouble bytes)) := rfl
  rw [pendingCapacity, lib.getObjectItem_merge pending _ _ _ hitem]
  rfl

/-- **A number comes through the document just if it has 53 significant bits.** -/
theorem toUnsigned_toDouble_iff {bytes : UInt64} (hpos : 1 ≤ bytes.toNat) :
    (∀ undefined, UInt64.ofNat ((toDouble bytes).toUnsigned 64 undefined) = bytes) ↔
      Binary.Representable 53 bytes.toNat := by
  rw [← Binary.round_eq_self_iff (by decide)]
  constructor
  · intro h
    by_cases hfits : Binary.round 53 bytes.toNat < 2 ^ 64
    · have hread := h fun _ => 0
      rw [toDouble, Double.toUnsigned_natCast _ hfits] at hread
      have hvalue := congrArg UInt64.toNat hread
      rwa [UInt64.toNat_ofNat', Nat.mod_eq_of_lt hfits] at hvalue
    · -- Nothing is promised of 2^64, not even that it is no 0.
      have hread := h fun _ => 0
      have hlarge : ¬((Binary.round 53 bytes.toNat : Nat) : ℚ) < 2 ^ 64 := by
        exact_mod_cast hfits
      rw [toDouble, Double.toUnsigned, if_neg fun h => hlarge h.2] at hread
      rw [← hread] at hpos
      exact absurd hpos (by decide)
  · intro h undefined
    rw [toDouble, h, Double.toUnsigned_natCast _ bytes.toNat_lt, UInt64.ofNat_toNat]

/-! ## The two ways -/

section
variable {w : Wire F} {loc : Local} {d : Daemon F} {h : Daemon.Host} {files : Daemon.Files Doc}
  {argv : List Text} {text : Text} {flag : Option Text} {n : Nat}

variable (hargs : sizeArgs none none argv = .resize text flag) (hn : SizeDenotes text n)
  (hone : 1 ≤ n) (hmax : n ≤ 2 ^ 64 - 1)

include hargs hn hone hmax

/-- A size in range is requested, and staged if there is no answer. -/
theorem cmdCacheSize_eq :
    cmdCacheSize w loc d h files argv =
      let request := if d.connects then some ⟨UInt64.ofNat n⟩ else none
      match cacheApply w loc d .cacheResizeResponse with
      | .applied _ => ⟨0, request, none⟩
      | .refused => ⟨1, request, none⟩
      | .unreachable =>
        match resolveConfigDir h files flag with
        | some configDir =>
          if loc.stages then
            ⟨0, request, some (configDir,
              stageNumber (lit "max_capacity_bytes") (UInt64.ofNat n))⟩
          else ⟨1, request, none⟩
        | none => ⟨1, request, none⟩ := by
  rw [cmdCacheSize, hargs]
  dsimp only
  rw [parseSizeBytes_denoted hn hone hmax]
  dsimp only [cacheSizeApply]
  rw [if_neg (by decide)]
  rcases cacheApply w loc d .cacheResizeResponse with _ | _ | _ <;> rfl

theorem cmdCacheSize_request (hd : d.connects = true) :
    (cmdCacheSize w loc d h files argv).request = some ⟨UInt64.ofNat n⟩ := by
  rw [cmdCacheSize_eq hargs hn hone hmax, hd]
  rcases cacheApply w loc d .cacheResizeResponse with _ | _ | _
  · rfl
  · rfl
  · rcases resolveConfigDir h files flag with _ | configDir
    · rfl
    · dsimp only
      split <;> rfl

theorem cmdCacheSize_staged {dir : Text}
    (hd : cacheApply w loc d .cacheResizeResponse = .unreachable)
    (hdir : resolveConfigDir h files flag = some dir) (hstages : loc.stages = true) :
    (cmdCacheSize w loc d h files argv).staged =
      some (dir, stageNumber (lit "max_capacity_bytes") (UInt64.ofNat n)) := by
  rw [cmdCacheSize_eq hargs hn hone hmax, hd, hdir, hstages]
  rfl

/-- **The exit status is the one of the command without its arguments.** -/
theorem cmdCacheSize_exit :
    (cmdCacheSize w loc d h files argv).exit =
      (Commands.cmdCacheSize w { loc with
        stages := loc.stages && (resolveConfigDir h files flag).isSome } d).exit := by
  have happly : cacheApply w { loc with
      stages := loc.stages && (resolveConfigDir h files flag).isSome } d .cacheResizeResponse =
      cacheApply w loc d .cacheResizeResponse := rfl
  rw [cmdCacheSize_eq hargs hn hone hmax, Commands.cmdCacheSize, happly]
  rcases cacheApply w loc d .cacheResizeResponse with _ | _ | _
  · rfl
  · rfl
  · rcases resolveConfigDir h files flag with _ | configDir
    · simp [Result.fail]
    · rcases loc.stages with _ | _ <;> rfl

end

/-- **A size that is applied and a size that is staged agree just if it has 53 significant
bits.**  One daemon is reached, the other one is not.  The request has the size as it was read,
while the document has it as a number of cJSON's, a `double`, from which the daemon reads it
back.  On the way only the rounding can change it (`toUnsigned_toDouble_iff`), and whatever has
been pending before is overwritten in that field. -/
theorem resize_agrees_iff (w : Wire F) (loc loc' : Local) (live away : Daemon F)
    (h : Daemon.Host) (files : Daemon.Files Doc) (lib : PendingSave)
    (argv : List Text) (text : Text) (flag : Option Text) (dir : Text) (n : Nat)
    (hargs : sizeArgs none none argv = .resize text flag)
    (hn : SizeDenotes text n) (hone : 1 ≤ n) (hmax : n ≤ 2 ^ 64 - 1)
    (hlive : live.connects = true)
    (haway : cacheApply w loc' away .cacheResizeResponse = .unreachable)
    (hdir : resolveConfigDir h files flag = some dir) (hstages : loc'.stages = true) :
    (∃ request doc, (cmdCacheSize w loc live h files argv).request = some request ∧
      (cmdCacheSize w loc' away h files argv).staged = some (dir, doc) ∧
      ∀ undefined pending,
        pendingCapacity undefined (lib.merge pending doc) = some request.capacityBytes) ↔
      Binary.Representable 53 n := by
  have hbytes : (UInt64.ofNat n).toNat = n := by
    rw [UInt64.toNat_ofNat']
    exact Nat.mod_eq_of_lt (by omega)
  have hiff := @toUnsigned_toDouble_iff (UInt64.ofNat n) (by omega)
  rw [hbytes] at hiff
  rw [cmdCacheSize_request hargs hn hone hmax hlive,
    cmdCacheSize_staged hargs hn hone hmax haway hdir hstages, ← hiff]
  constructor
  · rintro ⟨request, doc, hrequest, hdoc, hread⟩ undefined
    obtain rfl := Option.some.inj hrequest
    obtain rfl := (Prod.mk.inj (Option.some.inj hdoc)).2
    have := hread undefined none
    rw [pendingCapacity_merge] at this
    exact Option.some.inj this
  · intro hread
    refine ⟨_, _, rfl, rfl, fun undefined pending => ?_⟩
    rw [pendingCapacity_merge, hread]

/-! ### A size that comes through, and one that does not -/

/-- What is staged is put in front of what is pending. -/
def frontSave : PendingSave where
  merge pending doc :=
    match pending, doc with
    | some (.object old), .object new => .object (new ++ old)
    | _, doc => doc
  getObjectItem_merge := by
    intro pending doc field d hitem
    rcases doc with _ | _ | _ | _ | _ | new
    iterate 5 cases hitem
    rcases pending with _ | (_ | _ | _ | _ | _ | old)
    iterate 6 exact hitem
    obtain ⟨member, hfind, hd⟩ := Option.map_eq_some_iff.mp hitem
    show ((new ++ old).find? _).map Prod.snd = _
    rw [List.find?_append, hfind, ← hd]
    rfl

/-- Replies that say that the size is set. -/
def resizedWire : Wire Unit where
  getType := fun _ => .cacheResizeResponse
  decodes := fun _ => true
  status := fun _ => some .ok
  loadEnd := fun _ => none
  jsonData := fun _ => none
  acknowledges := fun _ _ => false

def resizer : Daemon Unit := ⟨true, fun _ => true, [()]⟩

def stopped : Daemon Unit := ⟨false, fun _ => false, []⟩

def operator : Local where
  encodes := true
  inputRead := true
  upload := ⟨true, 1, true, true, [.bytes 1]⟩
  outputOpens := true
  writes := fun _ => true
  rendered := true
  lookup := fun _ _ => none
  stages := true

def plainHost : Daemon.Host where
  cwd := lit "/root"
  locate := fun path => [path]
  defaultConfigPath := none
  defaultDirs := some ⟨lit "/etc/offs", lit "/var/cache/offs"⟩
  nprocs := 1
  undefinedCast := fun _ => 0

def noFiles : Daemon.Files Unit := ⟨fun _ => ⟨false, .unopened⟩, fun _ => none⟩

theorem sizeDenotes_gib : SizeDenotes (lit "1GiB") 1073741824 := by
  have htext : lit "1GiB" = lit "1" ++ lit "GiB" := by decide
  have hbytes : 1073741824 = value 10 (lit "1") * 1024 ^ 3 := by decide
  rw [htext, hbytes]
  exact .units (by decide) ⟨lit "GiB", by decide, rfl⟩

/-- One GiB is the same both ways. -/
theorem resize_agrees_iff_gib :
    (∃ request doc,
      (cmdCacheSize resizedWire operator resizer plainHost noFiles [lit "1GiB"]).request =
        some request ∧
      (cmdCacheSize resizedWire operator stopped plainHost noFiles [lit "1GiB"]).staged =
        some (lit "/etc/offs", doc) ∧
      ∀ undefined pending, pendingCapacity undefined (frontSave.merge pending doc) =
        some request.capacityBytes) ↔ Binary.Representable 53 1073741824 :=
  resize_agrees_iff resizedWire operator operator resizer stopped plainHost noFiles frontSave
    [lit "1GiB"] (lit "1GiB") none (lit "/etc/offs") 1073741824 (by decide) sizeDenotes_gib
    (by decide) (by decide) rfl rfl rfl rfl

/-- **A size that is staged as another one**: 2^53 + 1. -/
theorem odd_size_rounded :
    parseSizeBytes (some (lit "9007199254740993")) 0 = (0, 9007199254740993) ∧
    (cmdCacheSize resizedWire operator resizer plainHost noFiles
      [lit "9007199254740993"]).request = some ⟨9007199254740993⟩ ∧
    ∃ doc, (cmdCacheSize resizedWire operator stopped plainHost noFiles
        [lit "9007199254740993"]).staged = some (lit "/etc/offs", doc) ∧
      ∀ undefined, pendingCapacity undefined (frontSave.merge none doc) =
        some 9007199254740992 ∧ (9007199254740992 : UInt64) ≠ 9007199254740993 := by
  refine ⟨by decide, rfl, _, rfl, fun undefined => ⟨?_, by decide⟩⟩
  have hround : toDouble 9007199254740993 = .finite (9007199254740992 : Nat) := by
    rw [toDouble, show Binary.round 53 (9007199254740993 : UInt64).toNat = 9007199254740992 by
      decide]
  have hread : (toDouble 9007199254740993).toUnsigned 64 undefined = 9007199254740992 := by
    rw [hround]
    exact Double.toUnsigned_natCast _ (by decide)
  show some (UInt64.ofNat ((toDouble 9007199254740993).toUnsigned 64 undefined)) = _
  rw [hread]
  rfl

end Offs.CacheSize
