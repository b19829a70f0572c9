import OffsProof.BlockCommand
import OffsProof.CacheMove
import OffsProof.CacheSize
import OffsProof.GetStream
import OffsProof.GlobalOptions
import OffsProof.KeepList
import OffsProof.PutStream

/-! # From the command line to the request

`main` of the CLI takes the global options out, decides whether the command needs the daemon,
connects if it does, and looks the handler up in `g_commands`; the handler reads the rest of
the arguments and either returns with nothing sent or sends a request.  This module has that
way as a whole, for every command that talks to the daemon.

An argument is a C string (`CString`).  The file that `put` measures, the files that `--qr`
names, `bcrypt_generate` and the MIME types of liboffs and the allocation in
`_hex_decode_hash` are the caller's (`Caller`).  The printed texts are left out.

Four commands do without the connection of `main`: `start`, `stop` and `restart` look for the
process, and `cache` makes a connection of its own.  Their arguments are read here as far as
they decide whether the command returns at once, after its help or after a usage text; what an
accepted one then does (`Outcome.runs`), and what it returns in the end, is the subject of
`DaemonControl`, `CacheSize`, `CacheMove` and `KeepList`.

`daemon_needed_iff` says which command lines end with 0 though nothing has been run and nothing
sent, namely those that ask for a help text or the version.  The places for help differ from
command to command: the first argument (`HelpFirst`), any argument (`start`), or, for the
subcommands of `cache`, the first place where the loop over the arguments meets a help word
before it has refused something (`AsksHelp`).
-/
namespace Offs.Dispatch
open CText
open Offs.Main (Globals GlobalOption liftGlobals kept)
open Offs.Block (BlockRequest blockRequest rawBytes)

/-! ## Requests -/

/-- The four requests on a representation, 42, 44, 46 and 48. -/
inductive RepOp
  | markPermanent
  | deleteEphemeral
  | pin
  | unpin
  deriving DecidableEq, Repr

/-- What a handler sends first, as the fields of the message. -/
inductive Request
  | put (request : Put.PutRequest)
  | get (ori : Text) (outputPath : Option Text)
  | load (ori : Text)
  | block (request : BlockRequest)
  | ephemeralList
  | rep (op : RepOp) (url : Text)
  /-- Format 0, or with a path 2, the QR image that is written to it. -/
  | peerInfo (qrPath : Option Text)
  | peerList
  | peerConnect (format : Nat) (data : List UInt8)
  | friendAdd (format : Nat) (data : List UInt8)
  | friendRemove (nodeId : List UInt8)
  | friendList
  | bootstrapAdd (endpoint : Text)
  | bootstrapRemove (endpoint : Text)
  | bootstrapList
  /-- The whole configuration, from which `get` then prints one field. -/
  | configShow (field : Option Text)
  | configSet (field value : Text)
  | configReload
  | health
  /-- As `health`, and then for the state of the updater. -/
  | status
  deriving DecidableEq, Repr

/-! ## The caller -/

/-- The characters of a string in C: bytes, and none of them NUL. -/
def CString (t : Text) : Prop := ∀ c ∈ t, 0 < c.toNat ∧ c.toNat < 256

/-- What the calls of `read_file_contents` on a path give. -/
structure File where
  opens : Bool
  seeks : Bool
  /-- `ftell`, unless it fails. -/
  tells : Option Nat
  allocates : Bool
  /-- What `fread` gives for the length told. -/
  contents : List UInt8
  deriving DecidableEq, Repr

inductive ReadFile
  | ok (data : List UInt8)
  | ioError
  | empty
  | tooLarge
  deriving DecidableEq, Repr

/-- `QR_FILE_MAX_BYTES` -/
def qrFileMaxBytes : Nat := 2 * 1024 * 1024

/-- `read_file_contents`, of `peer.c` and of `friend.c`. -/
def readFileContents (file : File) : ReadFile :=
  if !file.opens then .ioError
  else if !file.seeks then .ioError
  else
    match file.tells with
    | none => .ioError
    | some length =>
      if length = 0 then .empty
      else if qrFileMaxBytes < length then .tooLarge
      else if !file.allocates then .ioError
      else if file.contents.length ≠ length then .ioError
      else .ok file.contents

/-- What is not the command line's: the files it names, and the functions of liboffs. -/
structure Caller where
  file : Text → File
  /-- `fopen`, `fseek` and `ftell` on the path of `put`: the size, if all succeed. -/
  measured : Text → Option Nat
  mimeTypeFromExtension : Text → Text
  /-- `bcrypt_generate` of a key at a cost, unless it fails. -/
  bcryptGenerate : Text → Nat → Option Text
  cString_bcrypt : ∀ key cost, ∀ hash ∈ bcryptGenerate key cost, CString hash
  /-- The `malloc` of `_hex_decode_hash` succeeds. -/
  allocates : Bool

/-! ## The handlers -/

/-- The handlers in `g_commands`. -/
inductive Entry
  | start
  | stop
  | restart
  | put
  | get
  | load
  | block
  | ephemeral
  | pin
  | unpin
  | peer
  | config
  | cache
  | friend
  | health
  | status
  | version
  | bootstrap
  deriving DecidableEq, Repr

/-- What a handler does with its arguments. -/
inductive Parsed
  /-- It returns, and has not used the client. -/
  | exits (code : Nat)
  /-- The arguments are accepted, and make a request. -/
  | asks (request : Request)
  /-- It does without the client of `main`. -/
  | runs (entry : Entry) (args : List Text)
  deriving DecidableEq, Repr

/-- `cmd_put` up to PUT_START: a file that cannot be measured or is empty, or a path without a
last component, ends it. -/
def cmdPut (caller : Caller) (args : List Text) : Parsed :=
  match Put.putArgs none .initial args with
  | .help => .exits 0
  | .refused => .exits 1
  | .accepted filePath options =>
    match caller.measured filePath with
    | none => .exits 1
    | some size =>
      if size = 0 then .exits 1
      else if Put.baseName filePath = [] then .exits 1
      else .asks (.put (Put.announcement caller.mimeTypeFromExtension filePath options size))

def cmdGet (args : List Text) : Parsed :=
  match Get.getArgs args with
  | .usage => .exits 1
  | .help => .exits 0
  | .get ori outputPath => .asks (.get ori outputPath)

/-- Whether one of the arguments is `--help`, where a handler looks at all of them first. -/
def asksHelp (args : List Text) : Bool := args.any (· = lit "--help")

/-- `cmd_start` up to its guard; every other argument is the daemon's. -/
def cmdStart (args : List Text) : Parsed :=
  if asksHelp args then .exits 0 else .runs .start args

def cmdLoad (args : List Text) : Parsed :=
  if asksHelp args then .exits 0
  else
    match args with
    | [ori] => .asks (.load ori)
    | _ => .exits 1

def cmdBlock (caller : Caller) (args : List Text) : Parsed :=
  match blockRequest caller.allocates args with
  | some request => .asks (.block request)
  | none => .exits 1

def cmdEphemeral (args : List Text) : Parsed :=
  if asksHelp args then .exits 0
  else
    match args with
    | [subcommand] => if subcommand = lit "list" then .asks .ephemeralList else .exits 1
    | [subcommand, url] =>
      if subcommand = lit "commit" then .asks (.rep .markPermanent url)
      else if subcommand = lit "delete" then .asks (.rep .deleteEphemeral url)
      else .exits 1
    | _ => .exits 1

/-- `_pin_command`, after the look for `--help` in `cmd_pin` or `cmd_unpin`. -/
def pinCommand (op : RepOp) (args : List Text) : Parsed :=
  if asksHelp args then .exits 0
  else
    match args with
    | [url] => .asks (.rep op url)
    | _ => .exits 1

def cmdPin : List Text → Parsed := pinCommand .pin

def cmdUnpin : List Text → Parsed := pinCommand .unpin

/-- The loop of `peer info` over its options; the last path counts. -/
def peerInfoArgs (qrPath : Option Text) : List Text → Parsed
  | [] => .asks (.peerInfo qrPath)
  | option :: path :: rest =>
    if option = lit "--qr" then peerInfoArgs (some path) rest else .exits 1
  | _ => .exits 1

/-- The bytes of `peer connect` and `friend add`: the file after `--qr`, in format 2, or the
argument itself. -/
def peerBytes (caller : Caller) (format : Nat) (request : Nat → List UInt8 → Request) :
    List Text → Parsed
  | [] => .exits 1
  | text :: rest =>
    if text = lit "--qr" then
      match rest with
      | [] => .exits 1
      | path :: _ =>
        match readFileContents (caller.file path) with
        | .ok data => .asks (request 2 data)
        | _ => .exits 1
    else .asks (request format (rawBytes text))

def cmdPeer (caller : Caller) : List Text → Parsed
  | [] => .exits 1
  | subcommand :: rest =>
    if subcommand = lit "info" then peerInfoArgs none rest
    else if subcommand = lit "list" then .asks .peerList
    else if subcommand = lit "connect" then peerBytes caller 1 .peerConnect rest
    else .exits 1

def cmdFriend (caller : Caller) : List Text → Parsed
  | [] => .exits 1
  | subcommand :: rest =>
    if subcommand = lit "add" then peerBytes caller 0 .friendAdd rest
    else if subcommand = lit "remove" then
      match rest with
      | [] => .exits 1
      | nodeId :: _ => .asks (.friendRemove (rawBytes nodeId))
    else if subcommand = lit "list" then .asks .friendList
    else .exits 1

def cmdBootstrap : List Text → Parsed
  | [] => .exits 1
  | subcommand :: rest =>
    if subcommand = lit "add" then
      match rest with
      | [] => .exits 1
      | endpoint :: _ => .asks (.bootstrapAdd endpoint)
    else if subcommand = lit "remove" then
      match rest with
      | [] => .exits 1
      | endpoint :: _ => .asks (.bootstrapRemove endpoint)
    else if subcommand = lit "list" then .asks .bootstrapList
    else .exits 1

/-- `_is_bcrypt_hash` -/
def isBcryptHash (t : Text) : Bool :=
  t.length = 60 && t[0]? = some '$' && t[1]? = some '2' &&
    (t[2]? = some 'a' || t[2]? = some 'b' || t[2]? = some 'y') && t[3]? = some '$'

/-- `--cost`: the whole text is a number from 4 to 31. -/
def bcryptCost (t : Text) : Option Nat :=
  match scan 10 t with
  | some (negative, n, []) => if negative ∨ n < 4 ∨ 31 < n then none else some n
  | _ => none

/-- `_cmd_generate_auth` after the key: the loop over the options, and the hash. -/
def generateAuth (caller : Caller) (key : Text) (cost : Nat) : List Text → Parsed
  | [] =>
    match caller.bcryptGenerate key cost with
    | some hash => .asks (.configSet (lit "api_key_hash") hash)
    | none => .exits 1
  | [option] => if option = lit "--help" then .exits 0 else .exits 1
  | option :: value :: rest =>
    if option = lit "--cost" then
      match bcryptCost value with
      | some cost => generateAuth caller key cost rest
      | none => .exits 1
    else if option = lit "--help" then .exits 0
    else .exits 1

/-- `config set`: the argument is cut at its first `=`. -/
def configSetArg (t : Text) : Parsed :=
  match t.dropWhile (· ≠ '=') with
  | [] => .exits 1
  | _ :: value => .asks (.configSet (t.takeWhile (· ≠ '=')) value)

def cmdConfig (caller : Caller) : List Text → Parsed
  | [] => .exits 1
  | subcommand :: rest =>
    if subcommand = lit "help" ∨ subcommand = lit "--help" then .exits 0
    else if subcommand = lit "show" then .asks (.configShow none)
    else if subcommand = lit "get" then
      match rest with
      | [] => .exits 1
      | field :: _ => .asks (.configShow (some field))
    else if subcommand = lit "set" then
      match rest with
      | [] => .exits 1
      | text :: _ => configSetArg text
    else if subcommand = lit "add" then
      match rest with
      | field :: value :: _ => .asks (.configSet field value)
      | _ => .exits 1
    else if subcommand = lit "remove" then
      match rest with
      | [] => .exits 1
      | field :: _ => .asks (.configSet field (lit "null"))
    else if subcommand = lit "set-auth" then
      match rest with
      | [] => .exits 1
      | hash :: _ =>
        if isBcryptHash hash then .asks (.configSet (lit "api_key_hash") hash) else .exits 1
    else if subcommand = lit "generate-auth" then
      match rest with
      | [] => .exits 1
      | key :: options => generateAuth caller key 12 options
    else if subcommand = lit "reload" then .asks .configReload
    else .exits 1

/-- `_cmd_cache_size` up to its request. -/
def cacheSizeArgs (args : List Text) : Parsed :=
  match CacheSize.sizeArgs none none args with
  | .help => .exits 0
  | .usage => .exits 1
  | .resize valueText _ =>
    if (CacheSize.parseSizeBytes (some valueText) 0).1 ≠ 0 then .exits 1
    else .runs .cache (lit "size" :: args)

/-- `_cmd_cache_move` up to its look at the destination. -/
def cacheMoveArgs (args : List Text) : Parsed :=
  match CliCache.parseMoveArgs args CliCache.noArgs with
  | .error .help => .exits 0
  | .error .error => .exits 1
  | .ok moveArgs =>
    match moveArgs.destText with
    | none => .exits 1
    | some _ => .runs .cache (lit "move" :: args)

/-- `_cmd_cache_gc` up to its look at the keep list. -/
def cacheGcArgs (args : List Text) : Parsed :=
  match CacheGc.gcArgs none false false args with
  | .help => .exits 0
  | .usage => .exits 1
  | .fromRequired => .exits 1
  | .sweep _ _ _ => .runs .cache (lit "gc" :: args)

def cmdCache : List Text → Parsed
  | [] => .exits 0
  | subcommand :: rest =>
    if subcommand = lit "--help" ∨ subcommand = lit "help" then .exits 0
    else if subcommand = lit "size" then cacheSizeArgs rest
    else if subcommand = lit "move" then cacheMoveArgs rest
    else if subcommand = lit "gc" then cacheGcArgs rest
    else .exits 1

def Entry.handler (caller : Caller) : Entry → List Text → Parsed
  | .put => cmdPut caller
  | .get => cmdGet
  | .load => cmdLoad
  | .block => cmdBlock caller
  | .ephemeral => cmdEphemeral
  | .pin => cmdPin
  | .unpin => cmdUnpin
  | .peer => cmdPeer caller
  | .config => cmdConfig caller
  | .friend => cmdFriend caller
  | .bootstrap => cmdBootstrap
  | .health => fun _ => .asks .health
  | .status => fun _ => .asks .status
  | .version => fun _ => .exits 0
  | .start => cmdStart
  | .stop => .runs .stop
  | .restart => .runs .restart
  | .cache => cmdCache

/-! ## `main` -/

/-- `g_commands`; `help` has no handler. -/
def gCommands : List (Text × Option Entry) :=
  [(lit "start", some .start), (lit "stop", some .stop), (lit "restart", some .restart),
    (lit "put", some .put), (lit "get", some .get), (lit "load", some .load),
    (lit "block", some .block), (lit "ephemeral", some .ephemeral), (lit "pin", some .pin),
    (lit "unpin", some .unpin), (lit "peer", some .peer), (lit "config", some .config),
    (lit "cache", some .cache), (lit "friend", some .friend), (lit "health", some .health),
    (lit "status", some .status), (lit "version", some .version),
    (lit "bootstrap", some .bootstrap), (lit "help", none)]

/-- `needs_client` -/
def needsClient (name : Text) (args : List Text) : Bool :=
  if name = lit "start" ∨ name = lit "stop" ∨ name = lit "restart" ∨ name = lit "version" ∨
      name = lit "cache" then false
  else if name = lit "config" ∧
      (args.head? = some (lit "help") ∨ args.head? = some (lit "--help")) then false
  else if name = lit "put" ∧ args.head? = some (lit "--help") then false
  else if name = lit "load" ∧ args.head? = some (lit "--help") then false
  else if (name = lit "ephemeral" ∨ name = lit "pin" ∨ name = lit "unpin") ∧
      args.head? = some (lit "--help") then false
  else true

/-- How far `offs` comes. -/
inductive Outcome
  /-- It returns, and nothing has been sent. -/
  | exits (code : Nat)
  /-- The daemon cannot be reached; it returns 1. -/
  | unreachable
  /-- A request is given to the client, which is NULL unless `main` has connected. -/
  | sends (connected : Bool) (request : Request)
  | runs (entry : Entry) (args : List Text)
  deriving DecidableEq, Repr

/-- The loop over the table, from a place on. -/
def dispatch (caller : Caller) (connected : Bool) (name : Text) (args : List Text) :
    List (Text × Option Entry) → Outcome
  | [] => .exits 1
  | (command, entry) :: table =>
    if command = name then
      match entry with
      | none => .exits 1
      | some entry =>
        match entry.handler caller args with
        | .exits code => .exits code
        | .asks request => .sends connected request
        | .runs entry args => .runs entry args
    else dispatch caller connected name args table

/-- `main` after its loop over the arguments, with what is left of them. -/
def offsArgs (caller : Caller) (reachable : Bool) : List Text → Outcome
  | [] => .exits 0
  | name :: args =>
    if name = lit "help" then .exits 0
    else if needsClient name args && !reachable then .unreachable
    else dispatch caller (needsClient name args) name args gCommands

/-- `main` -/
def offs (caller : Caller) (reachable : Bool) (argv : List Text) (g : Globals) : Outcome :=
  offsArgs caller reachable ((liftGlobals argv g).1.drop 1)

/-! ## Arguments -/

/-- What a handler can get as an argument: a string that is no global option. -/
structure IsArg (t : Text) : Prop where
  cString : CString t
  plain : GlobalOption.ofToken t = none

/-- The string of some bytes. -/
def textOf (data : List UInt8) : Text := data.map fun b => Char.ofNat b.toNat

theorem rawBytes_textOf (data : List UInt8) : rawBytes (textOf data) = data := by
  induction data with
  | nil => rfl
  | cons b data ih =>
    have hvalid : b.toNat.isValidChar := by
      have := b.toNat_lt
      exact Or.inl (by omega)
    have hchar : (Char.ofNat b.toNat).toNat = b.toNat := by
      rw [Char.ofNat, dif_pos hvalid]
      rfl
    have hbyte : UInt8.ofNat (Char.ofNat b.toNat).toNat = b := by
      rw [hchar, UInt8.ofNat_toNat]
    exact congrArg₂ List.cons hbyte ih

theorem textOf_rawBytes {t : Text} (h : CString t) : textOf (rawBytes t) = t := by
  induction t with
  | nil => rfl
  | cons c t ih =>
    obtain ⟨-, hbyte⟩ := h c List.mem_cons_self
    have hchar : Char.ofNat (UInt8.ofNat c.toNat).toNat = c := by
      rw [UInt8.toNat_ofNat', Nat.mod_eq_of_lt hbyte, Char.ofNat_toNat]
    exact congrArg₂ List.cons hchar (ih fun d hd => h d (List.mem_cons_of_mem _ hd))

theorem kept_sublist (args : List Text) : (kept args).Sublist args := by
  induction args using Main.pieces.induct with
  | case1 => exact List.Sublist.refl _
  | case2 t option ht =>
    rw [Main.kept_last ht]
    exact List.nil_sublist _
  | case3 t ht =>
    rw [Main.kept_plain ht]
    exact List.Sublist.refl _
  | case4 t value rest option ht ih =>
    rw [Main.kept_pair ht]
    exact (ih.cons value).cons t
  | case5 t value rest ht ih =>
    rw [Main.kept_plain ht]
    exact ih.cons_cons t

/-- The arguments that are kept can be given to a handler. -/
theorem isArg_of_mem_kept {args : List Text} (h : ∀ t ∈ args, CString t) {t : Text}
    (ht : t ∈ kept args) : IsArg t :=
  ⟨h t ((kept_sublist args).subset ht), Main.ofToken_of_mem_kept ht⟩

theorem offs_eq (caller : Caller) (reachable : Bool) (argv : List Text) (g : Globals) :
    offs caller reachable argv g = offsArgs caller reachable (kept argv.tail) := by
  have hdrop : (argv.take 1 ++ kept argv.tail).drop 1 = kept argv.tail := by
    cases argv <;> rfl
  rw [offs, Main.liftGlobals_eq, hdrop]

/-! ## The first step of the upload -/

/-- What `put` asks for is what the upload (`Put.step`) announces after its first step. -/
theorem cmdPut_asks_iff {caller : Caller} {args : List Text} {filePath : Text}
    {options : Put.Options} {request : Put.PutRequest} (content : List UInt8)
    (hargs : Put.putArgs none .initial args = .accepted filePath options) :
    cmdPut caller args = .asks (.put request) ↔
      ∃ s, Put.step caller.mimeTypeFromExtension (Put.St.begin args content)
        (.measured (caller.measured filePath)) = some s ∧ s.point = .encodingStart request := by
  have hpoint : (Put.St.begin args content).point = .opening filePath options := by
    simp only [Put.St.begin, hargs]
  simp only [cmdPut, hargs, Put.step, hpoint]
  cases caller.measured filePath with
  | none => simp
  | some size =>
    by_cases hempty : size = 0
    · simp [hempty]
    by_cases hname : Put.baseName filePath = []
    · simp [hempty, hname]
    · simp [hempty, hname]

/-! ## The help of `start` and of `cache` -/

theorem lit_inj {a b : String} : lit a = lit b ↔ a = b := String.toList_inj

/-- A loop over arguments meets a help word before it has refused an argument.  It skips the
flags in `valued` with the argument after them, whatever that is, and those in `switches`
alone; and it takes up to `n` arguments that do not begin with a dash for its own.  A help word
that stands where a value is due is a value. -/
inductive MeetsHelp (valued switches : List Text) : Nat → List Text → Prop
  | word {n : Nat} {arg : Text} {rest : List Text} : arg = lit "--help" ∨ arg = lit "help" →
      MeetsHelp valued switches n (arg :: rest)
  | value {n : Nat} {flag value : Text} {rest : List Text} : flag ∈ valued →
      MeetsHelp valued switches n rest → MeetsHelp valued switches n (flag :: value :: rest)
  | switch {n : Nat} {flag : Text} {rest : List Text} : flag ∈ switches →
      MeetsHelp valued switches n rest → MeetsHelp valued switches n (flag :: rest)
  | own {n : Nat} {arg : Text} {rest : List Text} : arg.head? ≠ some '-' →
      MeetsHelp valued switches n rest → MeetsHelp valued switches (n + 1) (arg :: rest)

section Help
variable {valued switches : List Text} {n : Nat} {arg : Text} {rest args : List Text}

theorem not_meetsHelp_nil : ¬MeetsHelp valued switches n [] := by
  intro h
  cases h

theorem meetsHelp_cons_iff : MeetsHelp valued switches n (arg :: rest) ↔
    (arg = lit "--help" ∨ arg = lit "help") ∨
    (arg ∈ valued ∧ ∃ value tail, rest = value :: tail ∧ MeetsHelp valued switches n tail) ∨
    (arg ∈ switches ∧ MeetsHelp valued switches n rest) ∨
    (arg.head? ≠ some '-' ∧ ∃ m, n = m + 1 ∧ MeetsHelp valued switches m rest) := by
  constructor
  · intro h
    cases h with
    | word hword => exact Or.inl hword
    | value hflag htail => exact Or.inr (Or.inl ⟨hflag, _, _, rfl, htail⟩)
    | switch hflag hrest => exact Or.inr (Or.inr (Or.inl ⟨hflag, hrest⟩))
    | own hdash hrest => exact Or.inr (Or.inr (Or.inr ⟨hdash, _, rfl, hrest⟩))
  · rintro (hword | ⟨hflag, value, tail, rfl, htail⟩ | ⟨hflag, hrest⟩ | ⟨hdash, m, rfl, hrest⟩)
    · exact .word hword
    · exact .value hflag htail
    · exact .switch hflag hrest
    · exact .own hdash hrest

/-- After an argument that the loop has no use for it goes no further. -/
theorem not_meetsHelp_refused (hword : ¬(arg = lit "--help" ∨ arg = lit "help"))
    (hvalued : arg ∉ valued) (hswitch : arg ∉ switches) (hown : arg.head? = some '-' ∨ n = 0) :
    ¬MeetsHelp valued switches n (arg :: rest) := by
  rw [meetsHelp_cons_iff]
  rintro (h | ⟨h, -⟩ | ⟨h, -⟩ | ⟨hdash, m, rfl, -⟩)
  · exact hword h
  · exact hvalued h
  · exact hswitch h
  · rcases hown with h | h
    · exact hdash h
    · cases h

/-- How many words of its own a loop still takes, with room for one. -/
def wordsLeft : Option Text → Nat
  | none => 1
  | some _ => 0

theorem wordsLeft_eq_zero {taken : Option Text} : wordsLeft taken = 0 ↔ taken ≠ none := by
  cases taken <;> simp [wordsLeft]

/-- The loop of `cache size` meets a help word, with room for so many words of its own. -/
abbrev SizeHelp : Nat → List Text → Prop := MeetsHelp [lit "--config-dir"] []

/-- The loop of `cache move` does. -/
abbrev MoveHelp : Nat → List Text → Prop :=
  MeetsHelp [lit "--from", lit "--config-dir"] [lit "--unsafe", lit "--keep"]

/-- The loop of `cache gc` does, which has no word of its own. -/
abbrev GcHelp : List Text → Prop := MeetsHelp [lit "--from"] [lit "--force", lit "--defrag"] 0

/-- The loop of `cache size`. -/
theorem sizeArgs_help_iff {valueText configDirFlag : Option Text} :
    CacheSize.sizeArgs valueText configDirFlag args = .help ↔ SizeHelp (wordsLeft valueText) args := by
  have hdash : (lit "--config-dir").head? = some '-' := rfl
  fun_induction CacheSize.sizeArgs valueText configDirFlag args with
  | case1 => simp [not_meetsHelp_nil]
  | case2 => simp [not_meetsHelp_nil]
  | case3 valueText configDirFlag arg rest hword => simp [meetsHelp_cons_iff, hword]
  | case4 valueText configDirFlag hword => simp [meetsHelp_cons_iff, hword, hdash]
  | case5 valueText configDirFlag dir rest hword ih =>
    simp [meetsHelp_cons_iff, hword, hdash, ih]
  | case6 valueText configDirFlag arg rest hword hflag hrefused =>
    have hown : arg.head? = some '-' ∨ wordsLeft valueText = 0 :=
      hrefused.imp_right wordsLeft_eq_zero.mpr
    have hvalued : arg ∉ [lit "--config-dir"] := List.mem_singleton.not.mpr hflag
    simp [not_meetsHelp_refused hword hvalued List.not_mem_nil hown]
  | case7 valueText configDirFlag arg rest hword hflag htaken ih =>
    rw [not_or, not_not] at htaken
    obtain ⟨harg, rfl⟩ := htaken
    simp [meetsHelp_cons_iff, hword, hflag, harg, ih, wordsLeft]

/-- The loop of `cache gc`. -/
theorem gcArgs_help_iff {source : Option Text} {force defrag : Bool} :
    CacheGc.gcArgs source force defrag args = .help ↔ GcHelp args := by
  have hdash : (lit "--from").head? = some '-' := rfl
  have hforce : (lit "--force").head? = some '-' := rfl
  have hdefrag : (lit "--defrag").head? = some '-' := rfl
  fun_induction CacheGc.gcArgs source force defrag args with
  | case1 => simp [not_meetsHelp_nil]
  | case2 => simp [not_meetsHelp_nil]
  | case3 source force defrag arg rest hword => simp [meetsHelp_cons_iff, hword]
  | case4 source force defrag hword => simp [meetsHelp_cons_iff, lit_inj, hdash]
  | case5 source force defrag path rest hword ih =>
    simp [meetsHelp_cons_iff, lit_inj, hdash, ih]
  | case6 source force defrag rest hword hfrom ih =>
    simp [meetsHelp_cons_iff, lit_inj, hforce, ih]
  | case7 source force defrag rest hword hfrom hforce ih =>
    simp [meetsHelp_cons_iff, lit_inj, hdefrag, ih]
  | case8 source force defrag arg rest hword hfrom hforce hdefrag =>
    simp [meetsHelp_cons_iff, hword, hfrom, hforce, hdefrag]

/-- A word of `cache move` that has no value: help, a flag, the destination, or refused. -/
theorem meetsHelp_moveWord {moveArgs : CliCache.MoveArgs}
    (halone : rest = [] ∨ ¬(arg = lit "--from" ∨ arg = lit "--config-dir")) :
    MoveHelp (wordsLeft moveArgs.destText) (arg :: rest) ↔
      CliCache.moveWord moveArgs arg = .error .help ∨
      ∃ moved, CliCache.moveWord moveArgs arg = .ok moved ∧
        MoveHelp (wordsLeft moved.destText) rest := by
  have hvalue : ¬((arg = lit "--from" ∨ arg = lit "--config-dir") ∧ ∃ value tail,
      rest = value :: tail ∧ MoveHelp (wordsLeft moveArgs.destText) tail) := by
    rintro ⟨hflag, value, tail, rfl, -⟩
    rcases halone with h | h
    · cases h
    · exact h hflag
  have hunsafe : (lit "--unsafe").head? = some '-' := rfl
  have hkeep : (lit "--keep").head? = some '-' := rfl
  simp only [meetsHelp_cons_iff, List.mem_cons, List.not_mem_nil, or_false, hvalue, false_or]
  unfold CliCache.moveWord
  split_ifs with hword hu hk hrefused
  · simp [hword]
  · subst hu
    simp [lit_inj, hunsafe]
  · subst hk
    simp [lit_inj, hkeep]
  · have hown : arg.head? = some '-' ∨ wordsLeft moveArgs.destText = 0 :=
      hrefused.imp_right fun h => wordsLeft_eq_zero.mpr (Option.isSome_iff_ne_none.mp h)
    have hidle : ¬(arg.head? ≠ some '-' ∧
        ∃ m, wordsLeft moveArgs.destText = m + 1 ∧ MoveHelp m rest) := by
      rintro ⟨hdash, m, hleft, -⟩
      rcases hown with h | h
      · exact hdash h
      · rw [h] at hleft
        cases hleft
    simp [hword, hu, hk, hidle]
  · rw [not_or] at hrefused
    obtain ⟨hdash, htaken⟩ := hrefused
    obtain hdest : moveArgs.destText = none := by simpa using htaken
    simp [hword, hu, hk, hdash, hdest, wordsLeft]

/-- The loop of `cache move`. -/
theorem parseMoveArgs_help_iff {moveArgs : CliCache.MoveArgs} :
    CliCache.parseMoveArgs args moveArgs = .error .help ↔
      MoveHelp (wordsLeft moveArgs.destText) args := by
  have hfrom : (lit "--from").head? = some '-' := rfl
  have hdir : (lit "--config-dir").head? = some '-' := rfl
  fun_induction CliCache.parseMoveArgs args moveArgs with
  | case1 => simp [not_meetsHelp_nil]
  | case2 arg moveArgs =>
    rw [meetsHelp_moveWord (Or.inl rfl)]
    simp [not_meetsHelp_nil]
  | case3 value rest moveArgs ih => simp [meetsHelp_cons_iff, lit_inj, hfrom, ih]
  | case4 value rest moveArgs hflag ih => simp [meetsHelp_cons_iff, lit_inj, hdir, ih]
  | case5 arg value rest moveArgs hfrom hdir moved hmoved ih =>
    rw [meetsHelp_moveWord (Or.inr (not_or.mpr ⟨hfrom, hdir⟩)), hmoved]
    simp [ih]
  | case6 arg value rest moveArgs hfrom hdir e he =>
    rw [meetsHelp_moveWord (Or.inr (not_or.mpr ⟨hfrom, hdir⟩)), he]
    simp

/-- The command `cache` is asked for a help text, its own or one of a subcommand. -/
def CacheHelp : List Text → Prop
  | [] => True
  | subcommand :: rest =>
    subcommand = lit "--help" ∨ subcommand = lit "help" ∨
    (subcommand = lit "size" ∧ SizeHelp 1 rest) ∨
    (subcommand = lit "move" ∧ MoveHelp 1 rest) ∨
    (subcommand = lit "gc" ∧ GcHelp rest)

/-- A command without the connection of `main` prints its help, or refuses its arguments, or
goes on with them. -/
def Parsed.TurnsOut (parsed : Parsed) (entry : Entry) (args : List Text) (help : Prop) : Prop :=
  (help ∧ parsed = .exits 0) ∨ (¬help ∧ (parsed = .exits 1 ∨ parsed = .runs entry args))

theorem cacheSizeArgs_turnsOut (args : List Text) :
    (cacheSizeArgs args).TurnsOut .cache (lit "size" :: args) (SizeHelp 1 args) := by
  have hhelp : CacheSize.sizeArgs none none args = .help ↔ _ := sizeArgs_help_iff
  unfold cacheSizeArgs
  cases hargs : CacheSize.sizeArgs none none args with
  | help => exact Or.inl ⟨hhelp.mp hargs, rfl⟩
  | usage => exact Or.inr ⟨fun h => by simp [hhelp.mpr h] at hargs, Or.inl rfl⟩
  | resize valueText configDirFlag =>
    refine Or.inr ⟨fun h => by simp [hhelp.mpr h] at hargs, ?_⟩
    dsimp only
    split_ifs
    · exact Or.inl rfl
    · exact Or.inr rfl

theorem cacheMoveArgs_turnsOut (args : List Text) :
    (cacheMoveArgs args).TurnsOut .cache (lit "move" :: args) (MoveHelp 1 args) := by
  have hhelp : CliCache.parseMoveArgs args CliCache.noArgs = .error .help ↔ _ :=
    parseMoveArgs_help_iff
  unfold cacheMoveArgs
  cases hargs : CliCache.parseMoveArgs args CliCache.noArgs with
  | error usage =>
    cases usage with
    | help => exact Or.inl ⟨hhelp.mp hargs, rfl⟩
    | error => exact Or.inr ⟨fun h => by simp [hhelp.mpr h] at hargs, Or.inl rfl⟩
  | ok moveArgs =>
    refine Or.inr ⟨fun h => by simp [hhelp.mpr h] at hargs, ?_⟩
    dsimp only
    cases moveArgs.destText
    · exact Or.inl rfl
    · exact Or.inr rfl

theorem cacheGcArgs_turnsOut (args : List Text) :
    (cacheGcArgs args).TurnsOut .cache (lit "gc" :: args) (GcHelp args) := by
  have hhelp : CacheGc.gcArgs none false false args = .help ↔ _ := gcArgs_help_iff
  unfold cacheGcArgs
  cases hargs : CacheGc.gcArgs none false false args with
  | help => exact Or.inl ⟨hhelp.mp hargs, rfl⟩
  | usage => exact Or.inr ⟨fun h => by simp [hhelp.mpr h] at hargs, Or.inl rfl⟩
  | fromRequired => exact Or.inr ⟨fun h => by simp [hhelp.mpr h] at hargs, Or.inl rfl⟩
  | sweep => exact Or.inr ⟨fun h => by simp [hhelp.mpr h] at hargs, Or.inr rfl⟩

theorem cmdCache_turnsOut (args : List Text) :
    (cmdCache args).TurnsOut .cache args (CacheHelp args) := by
  cases args with
  | nil => exact Or.inl ⟨trivial, rfl⟩
  | cons subcommand rest =>
    rw [cmdCache, CacheHelp]
    split_ifs with hhelp hsize hmove hgc
    · exact Or.inl ⟨hhelp.imp_right Or.inl, rfl⟩
    · subst hsize
      simpa [lit_inj] using cacheSizeArgs_turnsOut rest
    · subst hmove
      simpa [lit_inj] using cacheMoveArgs_turnsOut rest
    · subst hgc
      simpa [lit_inj] using cacheGcArgs_turnsOut rest
    · refine Or.inr ⟨?_, Or.inl rfl⟩
      rintro (h | h | ⟨h, -⟩ | ⟨h, -⟩ | ⟨h, -⟩)
      · exact hhelp (Or.inl h)
      · exact hhelp (Or.inr h)
      · exact hsize h
      · exact hmove h
      · exact hgc h

theorem cmdStart_turnsOut (args : List Text) :
    (cmdStart args).TurnsOut .start args (lit "--help" ∈ args) := by
  have hhelp : asksHelp args = true ↔ lit "--help" ∈ args := by simp [asksHelp]
  rw [cmdStart]
  split_ifs with h
  · exact Or.inl ⟨hhelp.mp h, rfl⟩
  · exact Or.inr ⟨fun hmem => h (hhelp.mpr hmem), Or.inr rfl⟩

end Help

/-! ## The table -/

/-- The name of a handler in `g_commands`. -/
def Entry.name : Entry → Text
  | .start => lit "start"
  | .stop => lit "stop"
  | .restart => lit "restart"
  | .put => lit "put"
  | .get => lit "get"
  | .load => lit "load"
  | .block => lit "block"
  | .ephemeral => lit "ephemeral"
  | .pin => lit "pin"
  | .unpin => lit "unpin"
  | .peer => lit "peer"
  | .config => lit "config"
  | .cache => lit "cache"
  | .friend => lit "friend"
  | .health => lit "health"
  | .status => lit "status"
  | .version => lit "version"
  | .bootstrap => lit "bootstrap"

/-- What the return of a handler is for `main`. -/
def Parsed.outcome (connected : Bool) : Parsed → Outcome
  | .exits code => .exits code
  | .asks request => .sends connected request
  | .runs entry args => .runs entry args

section Table
variable {caller : Caller} {connected : Bool} {name : Text} {args : List Text}

variable (caller connected name args) in
theorem dispatch_cases (table : List (Text × Option Entry)) :
    dispatch caller connected name args table = .exits 1 ∨
    ∃ entry, (name, some entry) ∈ table ∧
      dispatch caller connected name args table =
        (entry.handler caller args).outcome connected := by
  induction table with
  | nil => exact Or.inl rfl
  | cons row table ih =>
    obtain ⟨command, entry⟩ := row
    by_cases h : command = name
    · subst h
      cases entry with
      | none => exact Or.inl (by simp only [dispatch, ↓reduceIte])
      | some entry =>
        refine Or.inr ⟨entry, List.mem_cons_self, ?_⟩
        simp only [dispatch, ↓reduceIte]
        cases entry.handler caller args <;> rfl
    · simp only [dispatch, if_neg h]
      rcases ih with ih | ⟨entry, hmem, ih⟩
      · exact Or.inl ih
      · exact Or.inr ⟨entry, List.mem_cons_of_mem _ hmem, ih⟩

theorem name_of_mem_gCommands {entry : Entry} (h : (name, some entry) ∈ gCommands) :
    name = entry.name := by
  simp only [gCommands, List.mem_cons, Prod.mk.injEq, Option.some.injEq, reduceCtorEq, and_false,
    List.not_mem_nil, or_false] at h
  rcases h with h | h | h | h | h | h | h | h | h | h | h | h | h | h | h | h | h | h <;>
    obtain ⟨rfl, rfl⟩ := h <;> rfl

theorem dispatch_name (entry : Entry) :
    dispatch caller connected entry.name args gCommands =
      (entry.handler caller args).outcome connected := by
  cases entry <;> rfl

/-- The help of a command, asked for with its first argument. -/
def HelpFirst (entry : Entry) (args : List Text) : Prop :=
  (entry = .config ∧ args.head? = some (lit "help")) ∨
  ((entry = .config ∨ entry = .put ∨ entry = .load ∨ entry = .ephemeral ∨ entry = .pin ∨
      entry = .unpin) ∧
    args.head? = some (lit "--help"))

/-- The help of a command without the connection of `main`, which leaves the arguments to it. -/
def OwnHelp (entry : Entry) (args : List Text) : Prop :=
  (entry = .start ∧ lit "--help" ∈ args) ∨ (entry = .cache ∧ CacheHelp args)

/-- The handlers that make a connection of their own, or need none. -/
def Alone (entry : Entry) : Prop :=
  entry = .start ∨ entry = .stop ∨ entry = .restart ∨ entry = .cache

/-- `main` connects for a handler unless it is one of these. -/
theorem needsClient_name (entry : Entry) : needsClient entry.name args = false ↔
    Alone entry ∨ entry = .version ∨ HelpFirst entry args := by
  cases entry with
  | config =>
    simp only [needsClient, Entry.name, HelpFirst, Alone, lit_inj]
    by_cases hword : args.head? = some (lit "help")
    · simp [hword]
    · simp [hword]
  | _ => simp [needsClient, Entry.name, HelpFirst, Alone, lit_inj]

/-- Where `main` does not connect for the name, the name is one of a handler. -/
theorem entry_of_needsClient (h : needsClient name args = false) : ∃ entry : Entry,
    name = entry.name := by
  unfold needsClient at h
  split at h
  · rename_i hname
    rcases hname with rfl | rfl | rfl | rfl | rfl
    · exact ⟨.start, rfl⟩
    · exact ⟨.stop, rfl⟩
    · exact ⟨.restart, rfl⟩
    · exact ⟨.version, rfl⟩
    · exact ⟨.cache, rfl⟩
  split at h
  · rename_i hname
    exact ⟨.config, hname.1⟩
  split at h
  · rename_i hname
    exact ⟨.put, hname.1⟩
  split at h
  · rename_i hname
    exact ⟨.load, hname.1⟩
  split at h
  · rename_i hname
    obtain ⟨rfl | rfl | rfl, -⟩ := hname
    · exact ⟨.ephemeral, rfl⟩
    · exact ⟨.pin, rfl⟩
    · exact ⟨.unpin, rfl⟩
  · cases h

theorem putArgs_help (filePath : Option Text) (o : Put.Options) (rest : List Text) :
    Put.putArgs filePath o (lit "--help" :: rest) = .help := by
  unfold Put.putArgs
  exact if_pos rfl

theorem handler_helpFirst {entry : Entry} (h : HelpFirst entry args) :
    entry.handler caller args = .exits 0 := by
  obtain ⟨rfl, hhead⟩ | ⟨hentry, hhead⟩ := h
  · obtain ⟨rest, rfl⟩ : ∃ rest, args = lit "help" :: rest := by
      cases args <;> simp_all
    rfl
  · obtain ⟨rest, rfl⟩ : ∃ rest, args = lit "--help" :: rest := by
      cases args <;> simp_all
    rcases hentry with rfl | rfl | rfl | rfl | rfl | rfl
    · rfl
    · rw [Entry.handler, cmdPut, putArgs_help]
    all_goals rfl

theorem handler_alone (caller : Caller) {entry : Entry} (h : Alone entry) :
    (entry.handler caller args).TurnsOut entry args (OwnHelp entry args) := by
  rcases h with rfl | rfl | rfl | rfl
  · simpa [OwnHelp, Entry.handler] using cmdStart_turnsOut args
  · exact Or.inr ⟨by simp [OwnHelp], Or.inr rfl⟩
  · exact Or.inr ⟨by simp [OwnHelp], Or.inr rfl⟩
  · simpa [OwnHelp, Entry.handler] using cmdCache_turnsOut args

/-- Such a handler sends nothing with the client of `main`. -/
theorem handler_not_asks {entry : Entry} {request : Request} (h : Alone entry) :
    entry.handler caller args ≠ .asks request := by
  intro hasks
  rcases handler_alone caller h with ⟨-, hcode⟩ | ⟨-, hcode | hruns⟩
  · rw [hcode] at hasks
    cases hasks
  · rw [hcode] at hasks
    cases hasks
  · rw [hruns] at hasks
    cases hasks

/-- A handler that sends something is connected. -/
theorem needsClient_of_asks {entry : Entry} {request : Request}
    (h : entry.handler caller args = .asks request) : needsClient entry.name args = true := by
  by_contra hneeds
  rcases (needsClient_name entry).mp (Bool.eq_false_iff.mpr hneeds) with halone | rfl | hhelp
  · exact handler_not_asks halone h
  · cases h
  · rw [handler_helpFirst hhelp] at h
    cases h

end Table

/-! ## Without the daemon -/

/-- The command lines, less the global options, that only print something, and for which no
connection is made. -/
def Offline : List Text → Prop
  | [] => True
  | name :: args =>
    name = lit "help" ∨ name = lit "version" ∨ ∃ entry, name = Entry.name entry ∧
      (HelpFirst entry args ∨ OwnHelp entry args)

/-- The command lines, less the global options, of a command without the connection. -/
def RunsAlone : List Text → Prop
  | [] => False
  | name :: _ => ∃ entry, name = Entry.name entry ∧ Alone entry

section Offline
variable {caller : Caller} {reachable : Bool} {args : List Text}

theorem name_ne_help (entry : Entry) : entry.name ≠ lit "help" := by
  cases entry <;> decide

theorem alone_of_ownHelp {entry : Entry} (h : OwnHelp entry args) : Alone entry := by
  rcases h with ⟨rfl, -⟩ | ⟨rfl, -⟩
  · exact Or.inl rfl
  · exact Or.inr (Or.inr (Or.inr rfl))

theorem offsArgs_name (entry : Entry) (h : needsClient entry.name args = false) :
    offsArgs caller reachable (entry.name :: args) =
      (entry.handler caller args).outcome false := by
  rw [offsArgs, if_neg (name_ne_help entry), h, dispatch_name]
  rfl

theorem offsArgs_offline (h : Offline args) : offsArgs caller reachable args = .exits 0 := by
  cases args with
  | nil => rfl
  | cons name args =>
    rcases h with rfl | rfl | ⟨entry, rfl, hhelp | hhelp⟩
    · rw [offsArgs, if_pos rfl]
    · exact offsArgs_name .version rfl
    · rw [offsArgs_name entry ((needsClient_name entry).mpr (Or.inr (Or.inr hhelp))),
        handler_helpFirst hhelp]
      rfl
    · have halone := alone_of_ownHelp hhelp
      rw [offsArgs_name entry ((needsClient_name entry).mpr (Or.inl halone))]
      rcases handler_alone caller halone with ⟨-, hcode⟩ | ⟨hno, -⟩
      · rw [hcode]
        rfl
      · exact absurd hhelp hno

/-- A command without the connection prints its help, refuses its arguments or goes on,
whether or not the daemon is there. -/
theorem offsArgs_runsAlone (caller : Caller) (h : RunsAlone args) (hoffline : ¬Offline args) :
    (∀ reachable, offsArgs caller reachable args = .exits 1) ∨
    ∃ entry rest, ∀ reachable, offsArgs caller reachable args = .runs entry rest := by
  cases args with
  | nil => exact h.elim
  | cons name args =>
    obtain ⟨entry, rfl, halone⟩ := h
    have hneeds : needsClient entry.name args = false := (needsClient_name entry).mpr (Or.inl halone)
    rcases handler_alone caller halone with ⟨hhelp, -⟩ | ⟨-, hcode | hruns⟩
    · exact absurd (Or.inr (Or.inr ⟨entry, rfl, Or.inr hhelp⟩)) hoffline
    · refine Or.inl fun reachable => ?_
      rw [offsArgs_name entry hneeds, hcode]
      rfl
    · refine Or.inr ⟨entry, args, fun reachable => ?_⟩
      rw [offsArgs_name entry hneeds, hruns]
      rfl

/-- Any other command line is for a client. -/
theorem needsClient_of_not {name : Text} (hoffline : ¬Offline (name :: args))
    (halone : ¬RunsAlone (name :: args)) : needsClient name args = true := by
  by_contra hneeds
  have hneeds := Bool.eq_false_iff.mpr hneeds
  obtain ⟨entry, rfl⟩ := entry_of_needsClient hneeds
  rcases (needsClient_name entry).mp hneeds with h | rfl | h
  · exact halone ⟨entry, rfl, h⟩
  · exact hoffline (Or.inr (Or.inl rfl))
  · exact hoffline (Or.inr (Or.inr ⟨entry, rfl, Or.inl h⟩))

theorem offsArgs_unreachable (hoffline : ¬Offline args) (halone : ¬RunsAlone args) :
    offsArgs caller false args = .unreachable := by
  cases args with
  | nil => exact absurd trivial hoffline
  | cons name args =>
    have hname : name ≠ lit "help" := fun h => hoffline (Or.inl h)
    rw [offsArgs, if_neg hname, needsClient_of_not hoffline halone]
    rfl

/-- Where a request comes from. -/
theorem offsArgs_sends {connected : Bool} {request : Request}
    (h : offsArgs caller reachable args = .sends connected request) :
    ∃ entry rest, args = Entry.name entry :: rest ∧ entry.handler caller rest = .asks request ∧
      connected = true := by
  cases args with
  | nil => cases h
  | cons name args =>
    rw [offsArgs] at h
    split at h
    · cases h
    split at h
    · cases h
    rcases dispatch_cases caller (needsClient name args) name args gCommands with
      hnone | ⟨entry, hmem, hparsed⟩
    · rw [hnone] at h
      cases h
    obtain rfl := name_of_mem_gCommands hmem
    rw [hparsed] at h
    cases hasks : entry.handler caller args with
    | exits code =>
      rw [hasks] at h
      cases h
    | runs other rest =>
      rw [hasks] at h
      cases h
    | asks asked =>
      rw [hasks] at h
      obtain ⟨hconnected, rfl⟩ := Outcome.sends.inj h
      exact ⟨entry, args, rfl, hasks, hconnected.symm.trans (needsClient_of_asks hasks)⟩

end Offline

/-- **Who needs the daemon.**  No command line makes a handler send something without a
connection.  With the daemon out of reach, `offs` returns 0 with nothing run for the command
lines that only print something, and for no others; and it ends with the daemon unreachable
for every other command line but those of `start`, `stop`, `restart` and `cache`.  For these
and for the ones that only print something the connection is not tried: what `offs` does with
them does not depend on the daemon being there. -/
theorem daemon_needed_iff (caller : Caller) (argv : List Text) (g : Globals) :
    (∀ reachable request, offs caller reachable argv g ≠ .sends false request) ∧
    (offs caller false argv g = .exits 0 ↔ Offline (kept argv.tail)) ∧
    (offs caller false argv g = .unreachable ↔
      ¬Offline (kept argv.tail) ∧ ¬RunsAlone (kept argv.tail)) ∧
    (Offline (kept argv.tail) ∨ RunsAlone (kept argv.tail) →
      offs caller true argv g = offs caller false argv g) := by
  simp only [offs_eq]
  refine ⟨fun reachable request h => ?_, ⟨fun h => ?_, offsArgs_offline⟩,
    ⟨fun h => ⟨fun hoffline => ?_, fun halone => ?_⟩, fun h => offsArgs_unreachable h.1 h.2⟩,
    fun h => ?_⟩
  · obtain ⟨-, -, -, -, hconnected⟩ := offsArgs_sends h
    cases hconnected
  · by_contra hoffline
    by_cases halone : RunsAlone (kept argv.tail)
    · rcases offsArgs_runsAlone caller halone hoffline with
        hcode | ⟨entry, rest, hruns⟩
      · rw [hcode] at h
        cases h
      · rw [hruns] at h
        cases h
    · rw [offsArgs_unreachable hoffline halone] at h
      cases h
  · rw [offsArgs_offline hoffline] at h
    cases h
  · by_cases hoffline : Offline (kept argv.tail)
    · rw [offsArgs_offline hoffline] at h
      cases h
    · rcases offsArgs_runsAlone caller halone hoffline with
        hcode | ⟨entry, rest, hruns⟩
      · rw [hcode] at h
        cases h
      · rw [hruns] at h
        cases h
  · by_cases hoffline : Offline (kept argv.tail)
    · rw [offsArgs_offline hoffline, offsArgs_offline hoffline]
    · rcases offsArgs_runsAlone caller (h.resolve_left hoffline) hoffline with
        hcode | ⟨entry, rest, hruns⟩
      · rw [hcode, hcode]
      · rw [hruns, hruns]

end Offs.Dispatch
