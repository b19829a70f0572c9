import Mathlib.Data.List.Basic
import OffsProof.CText

/-! # The commands of the CLI

The handlers of `offs` that talk to the daemon, from the point where their arguments have been
accepted: what they send, how they take the reply apart and what they return.

A daemon is seen through the connection it gives: whether it can be reached, which frames can be
sent, and the frames that `cli_client_recv_frame` returns before it returns NULL, be it that
nothing more was sent, that the connection was lost or that CBOR could not be read.  The codecs
of liboffs are a parameter (`Wire`).  What happens on the caller's own side comes from an oracle
(`Local`).  The texts that are printed are left out; `shown` has the replies that a command
prints or writes.

Most handlers are one of a few kinds: they show any reply and return 0 (`showAny`), take whatever
is not an error for success (`unlessError`), ask for a decoded reply of their own type
(`ifDecoded`), or for one whose status is OK (`ifStatusOk`).  Each keeps its name, as the kind
applied to its own reply type.  `put`, `get` and `load` have loops over the frames or over the
file, and `cache size` and `cache gc` connect by themselves and look at what has come of it.
-/
namespace Offs.Commands
open CText

/-! ## Replies -/

/-- `client_api_wire_get_type` -/
inductive ReplyType
  | error
  | putResponse
  | getResponseStart
  | getData
  | getEnd
  | loadProgress
  | loadEnd
  | blockPutResponse
  | blockGetResponse
  | blockDeleteResponse
  | ephemeralListResponse
  | repMarkPermanentResponse
  | repDeleteEphemeralResponse
  | repPinResponse
  | repUnpinResponse
  | peerInfoResponse
  | peerListResponse
  | peerConnectResult
  | friendListResponse
  | bootstrapListResponse
  | configShowResponse
  | configSetResponse
  | configReloadResponse
  | cacheResizeResponse
  | gcResponse
  | healthResponse
  | other (code : Nat)
  deriving DecidableEq, Repr

/-- `CLIENT_API_STATUS_*`; in the replies about configuration and cache `ok` is 0. -/
inductive Status
  | ok
  | conflict
  | notFound
  | badRequest
  | internalError
  | other (code : Nat)
  deriving DecidableEq, Repr

/-- `CLIENT_API_LOAD_STATUS_*` -/
inductive LoadStatus
  | loaded
  | partlyLoaded
  | failed
  | other (code : Nat)
  deriving DecidableEq, Repr

inductive Command
  | put
  | get
  | load
  | blockPut
  | blockGet
  | blockDelete
  | ephemeralList
  | ephemeralCommit
  | ephemeralDelete
  | pin
  | unpin
  /-- To a QR image, or as text. -/
  | peerInfo (qr : Bool)
  | peerList
  | peerConnect
  | friendAdd
  | friendRemove
  | friendList
  | bootstrapAdd
  | bootstrapRemove
  | bootstrapList
  | configShow
  | configGet (field : Text)
  | configSet
  | configAdd
  | configRemove
  | configReload
  | cacheSize
  | cacheGc
  | health
  deriving DecidableEq, Repr

/-- The codecs of liboffs, over frames in `F`.  A decoder is applied to frames of its own type
only; `none` and `false` mean that it fails.  Nothing is assumed about them, so that a statement
for every `Wire` is one for every reply that a daemon can send, well-formed or not. -/
structure Wire (F : Type) where
  getType : F → ReplyType
  /-- The decoder of a message whose content the handler only prints. -/
  decodes : F → Bool
  /-- The decoder of a message with a status. -/
  status : F → Option Status
  /-- `client_api_load_end_decode` -/
  loadEnd : F → Option LoadStatus
  /-- The decoder of a message with a `json_data`, which may be NULL. -/
  jsonData : F → Option (Option Text)
  /-- What the daemon answers to a friend or peer request that it has carried out.  The
  handlers do not look. -/
  acknowledges : Command → F → Bool

/-! ## The two sides -/

structure Daemon (F : Type) where
  /-- `cli_client_connect` succeeds. -/
  connects : Bool
  /-- Whether the frames can be sent, in order. -/
  sends : Nat → Bool
  replies : List F

/-- One `fread` that gives something, or an error. -/
inductive Read
  | bytes (n : Nat)
  | error
  deriving DecidableEq, Repr

/-- The file of `offs put`. -/
structure Upload where
  /-- `fopen`, `fseek` and `ftell` succeed. -/
  opens : Bool
  size : Nat
  /-- The path does not end in a separator. -/
  named : Bool
  /-- The chunk buffer can be allocated. -/
  allocates : Bool
  reads : List Read

/-- What happens on the caller's side. -/
structure Local where
  /-- The requests can be encoded. -/
  encodes : Bool
  /-- The file that goes with the request, if there is one, can be read. -/
  inputRead : Bool
  upload : Upload
  /-- The output file, if there is one, can be opened. -/
  outputOpens : Bool
  /-- Which writes are complete, in order. -/
  writes : Nat → Bool
  /-- The text of `offs peer info` can be made. -/
  rendered : Bool
  /-- A field of a JSON document, printed. -/
  lookup : Text → Text → Option Text
  /-- The pending document can be written. -/
  stages : Bool

/-- What a command returns, and what it has shown and staged. -/
structure Result (F : Type) where
  exit : Nat
  shown : List F
  staged : Bool

namespace Result
variable {F : Type}

def fail : Result F := ⟨1, [], false⟩

def ok (shown : List F) : Result F := ⟨0, shown, false⟩

end Result

section Handlers
variable {F : Type} (w : Wire F) (loc : Local) (d : Daemon F)

/-- `cli_client_send` -/
def cliClientSend : Option F := if loc.encodes ∧ d.sends 0 then d.replies.head? else none

/-! ## Kinds of handlers -/

/-- Show a reply of the own type, and return 0 in any case. -/
def showAny (own : ReplyType) : Result F :=
  match cliClientSend loc d with
  | some response => .ok (if w.getType response = own ∧ w.decodes response then [response] else [])
  | none => .ok []

/-- Return 0 for whatever is not an error. -/
def unlessError (inputRead : Bool) : Result F :=
  if inputRead then
    match cliClientSend loc d with
    | some response => if w.getType response = .error then .fail else .ok []
    | none => .fail
  else .fail

/-- Return 0 for a decoded reply of the own type. -/
def ifDecoded (own : ReplyType) (response : Option F) : Result F :=
  match response with
  | some response =>
    if w.getType response = own ∧ w.decodes response then .ok [response] else .fail
  | none => .fail

/-- Return 0 for a reply of the own type with status OK. -/
def ifStatusOk (own : ReplyType) : Result F :=
  match cliClientSend loc d with
  | some response =>
    if w.getType response = own ∧ w.status response = some .ok then .ok [response] else .fail
  | none => .fail

/-- The `json_data` of a reply of the own type. -/
def jsonReply (own : ReplyType) : Option (F × Text) :=
  (cliClientSend loc d).bind fun response =>
    if w.getType response = own then (w.jsonData response).join.map (response, ·) else none

/-! ## The handlers -/

def cmdBlockPut : Result F := showAny w loc d .blockPutResponse

def cmdBlockGet : Result F := showAny w loc d .blockGetResponse

def cmdBlockDelete : Result F := ifStatusOk w loc d .blockDeleteResponse

def cmdEphemeralList : Result F := ifStatusOk w loc d .ephemeralListResponse

def cmdEphemeralCommit : Result F := ifStatusOk w loc d .repMarkPermanentResponse

def cmdEphemeralDelete : Result F := ifStatusOk w loc d .repDeleteEphemeralResponse

def cmdPin : Result F := ifStatusOk w loc d .repPinResponse

def cmdUnpin : Result F := ifStatusOk w loc d .repUnpinResponse

/-- `offs peer info`, which has to write or to print the reply after it has been decoded. -/
def cmdPeerInfo (qr : Bool) : Result F :=
  let result := ifDecoded w .peerInfoResponse (cliClientSend loc d)
  let delivered := if qr then loc.outputOpens && loc.writes 0 else loc.rendered
  if delivered then result else .fail

def cmdPeerList : Result F := showAny w loc d .peerListResponse

def cmdPeerConnect : Result F := unlessError w loc d loc.inputRead

def cmdFriendAdd : Result F := unlessError w loc d loc.inputRead

/-- `offs friend remove`, which has no file to read. -/
def cmdFriendRemove : Result F := unlessError w loc d true

def cmdFriendList : Result F := showAny w loc d .friendListResponse

/-- `bootstrap_send_and_report` -/
def cmdBootstrapAdd : Result F := ifStatusOk w loc d .peerConnectResult

def cmdBootstrapRemove : Result F := ifStatusOk w loc d .peerConnectResult

def cmdBootstrapList : Result F := ifDecoded w .bootstrapListResponse (cliClientSend loc d)

def cmdConfigShow : Result F :=
  match jsonReply w loc d .configShowResponse with
  | some (response, _) => .ok [response]
  | none => .fail

def cmdConfigGet (field : Text) : Result F :=
  match jsonReply w loc d .configShowResponse with
  | some (response, json) => if (loc.lookup json field).isSome then .ok [response] else .fail
  | none => .fail

/-- `_config_send_set`, which `set`, `add` and `remove` share. -/
def configSendSet : Result F := ifStatusOk w loc d .configSetResponse

def cmdConfigReload : Result F := ifStatusOk w loc d .configReloadResponse

def cmdHealth : Result F :=
  match jsonReply w loc d .healthResponse with
  | some (response, _) => .ok [response]
  | none => .fail

/-- The loop of `offs get`, after `written` writes. -/
def getLoop (written : Nat) (shortWrite : Bool) (shown : List F) : List F → Result F
  -- NULL without GET_END: the stream was cut.
  | [] => ⟨1, shown, false⟩
  | response :: rest =>
    match w.getType response with
    | .getData =>
      if w.decodes response then
        getLoop (written + 1) (shortWrite || !loc.writes written) (shown ++ [response]) rest
      else getLoop written shortWrite shown rest
    | .getEnd => if shortWrite then ⟨1, shown, false⟩ else .ok shown
    | .error => ⟨1, shown, false⟩
    | _ => getLoop written shortWrite shown rest

def cmdGet : Result F :=
  match cliClientSend loc d with
  | some response =>
    if w.getType response = .getResponseStart then
      -- Whether the start frame can be decoded is not checked.
      if loc.outputOpens then getLoop w loc 0 false [] d.replies.tail else .fail
    else .fail
  | none => .fail

/-- The loop of `offs load`. -/
def loadLoop : List F → Result F
  | [] => .fail
  | response :: rest =>
    match w.getType response with
    | .loadEnd =>
      match w.loadEnd response with
      | some .failed | none => .fail
      -- Whatever else the status is.
      | some _ => .ok [response]
    | .error => .fail
    | _ => loadLoop rest

def cmdLoad : Result F :=
  if loc.encodes ∧ d.sends 0 then loadLoop w d.replies else .fail

/-- The loop of `offs put`, with the next frame and the bytes left: the frame after it, or
an error. -/
def putLoop (frame left : Nat) : List Read → Option Nat
  -- The file is shorter than it was.
  | [] => some frame
  | read :: rest =>
    if left = 0 then some frame
    else
      match read with
      | .error => none
      | .bytes n => if d.sends frame then putLoop (frame + 1) (left - n) rest else none

/-- All frames of an upload have been sent. -/
def uploads : Bool :=
  loc.upload.opens && loc.upload.size != 0 && loc.upload.named && loc.encodes && d.sends 0 &&
    loc.upload.allocates && (putLoop d 1 loc.upload.size loc.upload.reads).any d.sends

def cmdPut : Result F :=
  ifDecoded w .putResponse (if uploads loc d then d.replies.head? else none)

/-- `_cache_size_apply` -/
inductive Applied (F : Type)
  | applied (response : F)
  | refused
  | unreachable

def cacheApply (own : ReplyType) : Applied F :=
  if d.connects then
    if loc.encodes then
      match cliClientSend loc d with
      | some response =>
        if w.getType response = own ∧ w.status response = some .ok then .applied response
        else .refused
      | none => .unreachable
    else .refused
  else .unreachable

/-- `offs cache size`, which stages the size if the daemon cannot be reached. -/
def cmdCacheSize : Result F :=
  match cacheApply w loc d .cacheResizeResponse with
  | .applied response => .ok [response]
  | .refused => .fail
  | .unreachable => if loc.stages then ⟨0, [], true⟩ else .fail

def cmdCacheGc : Result F :=
  if loc.inputRead then
    match cacheApply w loc d .gcResponse with
    | .applied response => .ok [response]
    | .refused | .unreachable => .fail
  else .fail

/-- The handler of a command. -/
def handler : Command → Result F
  | .put => cmdPut w loc d
  | .get => cmdGet w loc d
  | .load => cmdLoad w loc d
  | .blockPut => cmdBlockPut w loc d
  | .blockGet => cmdBlockGet w loc d
  | .blockDelete => cmdBlockDelete w loc d
  | .ephemeralList => cmdEphemeralList w loc d
  | .ephemeralCommit => cmdEphemeralCommit w loc d
  | .ephemeralDelete => cmdEphemeralDelete w loc d
  | .pin => cmdPin w loc d
  | .unpin => cmdUnpin w loc d
  | .peerInfo qr => cmdPeerInfo w loc d qr
  | .peerList => cmdPeerList w loc d
  | .peerConnect => cmdPeerConnect w loc d
  | .friendAdd => cmdFriendAdd w loc d
  | .friendRemove => cmdFriendRemove w loc d
  | .friendList => cmdFriendList w loc d
  | .bootstrapAdd => cmdBootstrapAdd w loc d
  | .bootstrapRemove => cmdBootstrapRemove w loc d
  | .bootstrapList => cmdBootstrapList w loc d
  | .configShow => cmdConfigShow w loc d
  | .configGet field => cmdConfigGet w loc d field
  | .configSet | .configAdd | .configRemove => configSendSet w loc d
  | .configReload => cmdConfigReload w loc d
  | .cacheSize => cmdCacheSize w loc d
  | .cacheGc => cmdCacheGc w loc d
  | .health => cmdHealth w loc d

/-- The commands that connect by themselves. -/
def Command.selfConnects : Command → Bool
  | .cacheSize | .cacheGc => true
  | _ => false

/-- `main`: connect, and run the handler. -/
def offs (cmd : Command) : Result F :=
  if cmd.selfConnects || d.connects then handler w loc d cmd else .fail

end Handlers

end Offs.Commands
