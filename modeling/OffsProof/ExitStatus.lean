import OffsProof.CliCommands

/-! # What the exit status says

A command should return 0 only if the daemon sent the reply that means success (`OwnSuccess`),
or, for `offs cache size`, if the size was staged.

Most handlers look for a reply of their own type, decode it and test its status.  Four kinds do
not.  `block put`, `block get`, `peer list` and `friend list` return 0 whatever comes, or
nothing.  `friend add`, `friend remove` and `peer connect` take every reply that is not an error
for success.  `get` passes over the frames it cannot decode.  `load` takes a status that it does
not know for success.

`Candid` says, command by command, that the daemon gives the handler no occasion to err in this
way; it speaks of the frames that are sent and never of what the handler returns.  It is the
exact condition (`exit_status_truthful_iff`).  The proof has one lemma for each kind of handler,
which says when it returns 0, and one for each of the two loops, by induction over the frames:
`get` returns 0 exactly if the stream comes to its end and no write was short (`getLoop_exit`),
`load` exactly at an end that does not say that it failed (`loadLoop_exit`).

A load that came to an end with some tuples missing counts as success: the handler says so and
returns 0.
-/
namespace Offs.Commands
open CText

variable {F : Type}

/-! ## Success -/

section Success
variable (w : Wire F)

/-- **The stream up to its end**: `last` is the first frame of the type that ends it, and no error
comes before.  What comes after it is not looked at. -/
structure Upto (own : ReplyType) (frames before : List F) (last : F) : Prop where
  frames : ∃ rest, frames = before ++ last :: rest
  last : w.getType last = own
  before : ∀ r ∈ before, w.getType r ≠ .error ∧ w.getType r ≠ own

/-- The frames of a download that came through: the stream gets to its end, and all of it
can be decoded. -/
def Delivered (frames : List F) : Prop :=
  ∃ start rest data last, frames = start :: rest ∧ w.getType start = .getResponseStart ∧
    w.decodes start ∧ Upto w .getEnd rest data last ∧
    ∀ r ∈ data, w.getType r = .getData → w.decodes r

/-- The frames of a load that ends with this status. -/
def LoadEnds (status : LoadStatus) (frames : List F) : Prop :=
  ∃ before last, Upto w .loadEnd frames before last ∧ w.loadEnd last = some status

/-- The frames of a load that did not fail. -/
def Loaded (frames : List F) : Prop := LoadEnds w .loaded frames ∨ LoadEnds w .partlyLoaded frames

/-- The reply is of this type and can be decoded. -/
def Decoded (own : ReplyType) (r : F) : Prop := w.getType r = own ∧ w.decodes r

/-- The reply is of this type and its status is OK. -/
def StatusOk (own : ReplyType) (r : F) : Prop := w.getType r = own ∧ w.status r = some .ok

/-- The reply is of this type and carries a document. -/
def HasJson (own : ReplyType) (r : F) : Prop :=
  w.getType r = own ∧ ∃ json, w.jsonData r = some (some json)

/-- A single reply that means success. -/
def Confirms : Command → F → Prop
  | .put => Decoded w .putResponse
  | .blockPut => Decoded w .blockPutResponse
  | .blockGet => Decoded w .blockGetResponse
  | .blockDelete => StatusOk w .blockDeleteResponse
  | .ephemeralList => StatusOk w .ephemeralListResponse
  | .ephemeralCommit => StatusOk w .repMarkPermanentResponse
  | .ephemeralDelete => StatusOk w .repDeleteEphemeralResponse
  | .pin => StatusOk w .repPinResponse
  | .unpin => StatusOk w .repUnpinResponse
  | .peerInfo _ => Decoded w .peerInfoResponse
  | .peerList => Decoded w .peerListResponse
  | .peerConnect => fun r => w.acknowledges .peerConnect r
  | .friendAdd => fun r => w.acknowledges .friendAdd r
  | .friendRemove => fun r => w.acknowledges .friendRemove r
  | .friendList => Decoded w .friendListResponse
  | .bootstrapAdd | .bootstrapRemove => StatusOk w .peerConnectResult
  | .bootstrapList => Decoded w .bootstrapListResponse
  | .configShow | .configGet _ => HasJson w .configShowResponse
  | .configSet | .configAdd | .configRemove => StatusOk w .configSetResponse
  | .configReload => StatusOk w .configReloadResponse
  | .cacheSize => StatusOk w .cacheResizeResponse
  | .cacheGc => StatusOk w .gcResponse
  | .health => HasJson w .healthResponse
  -- These two are answered with a stream.
  | .get | .load => fun _ => False

/-- **The frames are the command's own success reply.**  For the two downloads it is a stream that
came through, and for all other commands the first frame, if it confirms what was asked for. -/
def OwnSuccess (cmd : Command) (frames : List F) : Prop :=
  match cmd with
  | .get => Delivered w frames
  | .load => Loaded w frames
  | cmd => ∃ r, frames.head? = some r ∧ Confirms w cmd r

variable (loc : Local) (d : Daemon F)

/-- What the daemon sends once it has the whole request. -/
def received (cmd : Command) : List F :=
  let sent := match cmd with
    | .put => uploads loc d
    | _ => loc.encodes && d.sends 0
  if sent then d.replies else []

/-- **The exit status tells the truth.**  A command that returns 0 has got its own success reply;
the one that may do without is `offs cache size`, if it has staged the size. -/
def Truthful (cmd : Command) : Prop :=
  (offs w loc d cmd).exit = 0 →
    OwnSuccess w cmd (received loc d cmd) ∨ (cmd = .cacheSize ∧ (offs w loc d cmd).staged)

/-- The chunks of a download that can be decoded are written in full. -/
def WritesAll (data : List F) : Prop :=
  ∀ k < data.countP (fun r => w.getType r = .getData ∧ w.decodes r), loc.writes k = true

/-- **The daemon gives the handler no occasion to err.**  Each case is one of the ways in which a
handler looks at less than it should, and asks the daemon not to send what would be mistaken for
success there.  All other commands need nothing of the kind. -/
def Candid (cmd : Command) : Prop :=
  match cmd with
  | .blockPut | .blockGet | .peerList | .friendList =>
    ∃ r, (received loc d cmd).head? = some r ∧ Confirms w cmd r
  | .peerConnect | .friendAdd => loc.inputRead → ∀ r, (received loc d cmd).head? = some r →
      w.getType r ≠ .error → w.acknowledges cmd r
  | .friendRemove => ∀ r, (received loc d cmd).head? = some r →
      w.getType r ≠ .error → w.acknowledges cmd r
  | .get => loc.outputOpens → ∀ start rest data last,
      received loc d cmd = start :: rest → w.getType start = .getResponseStart →
      Upto w .getEnd rest data last → WritesAll w loc data →
      w.decodes start ∧ ∀ r ∈ data, w.getType r = .getData → w.decodes r
  | .load => ∀ code, ¬LoadEnds w (.other code) (received loc d cmd)
  | _ => True

end Success

/-! ## What each kind of handler returns -/

section Kinds
variable {w : Wire F} {loc : Local} {d : Daemon F}

/-- Only `put` sends more than one frame. -/
theorem received_eq (loc : Local) (d : Daemon F) {cmd : Command} (hput : cmd ≠ .put) :
    received loc d cmd = if loc.encodes ∧ d.sends 0 then d.replies else [] := by
  unfold received
  split
  · exact absurd rfl hput
  · simp only [Bool.and_eq_true]

theorem cliClientSend_eq (loc : Local) (d : Daemon F) {cmd : Command} (hput : cmd ≠ .put) :
    cliClientSend loc d = (received loc d cmd).head? := by
  rw [received_eq loc d hput]
  unfold cliClientSend
  split <;> rfl

theorem showAny_exit (own : ReplyType) : (showAny w loc d own).exit = 0 := by
  unfold showAny
  split <;> rfl

theorem unlessError_exit (inputRead : Bool) :
    (unlessError w loc d inputRead).exit = 0 ↔
      inputRead = true ∧ ∃ r, cliClientSend loc d = some r ∧ w.getType r ≠ .error := by
  unfold unlessError
  cases inputRead with
  | false => simp [Result.fail]
  | true =>
    cases hsend : cliClientSend loc d with
    | none => simp [Result.fail]
    | some r => by_cases herror : w.getType r = .error <;> simp [herror, Result.fail, Result.ok]

theorem ifDecoded_exit {own : ReplyType} {response : Option F}
    (h : (ifDecoded w own response).exit = 0) : ∃ r, response = some r ∧ Decoded w own r := by
  unfold ifDecoded at h
  cases response with
  | none => cases h
  | some r =>
    dsimp only at h
    split at h
    · rename_i hown
      exact ⟨r, rfl, hown⟩
    · cases h

theorem ifStatusOk_exit {own : ReplyType} (h : (ifStatusOk w loc d own).exit = 0) :
    ∃ r, cliClientSend loc d = some r ∧ StatusOk w own r := by
  unfold ifStatusOk at h
  cases hsend : cliClientSend loc d with
  | none =>
    rw [hsend] at h
    cases h
  | some r =>
    rw [hsend] at h
    dsimp only at h
    split at h
    · rename_i hown
      exact ⟨r, rfl, hown⟩
    · cases h

theorem jsonReply_some {own : ReplyType} {r : F} {json : Text}
    (h : jsonReply w loc d own = some (r, json)) :
    cliClientSend loc d = some r ∧ HasJson w own r := by
  obtain ⟨r', hsend, h⟩ := Option.bind_eq_some_iff.mp h
  split at h
  · rename_i hown
    obtain ⟨json', hjson, heq⟩ := Option.map_eq_some_iff.mp h
    cases heq
    exact ⟨hsend, hown, json, Option.join_eq_some_iff.mp hjson⟩
  · cases h

theorem cacheApply_applied {own : ReplyType} {r : F}
    (h : cacheApply w loc d own = .applied r) : cliClientSend loc d = some r ∧ StatusOk w own r := by
  unfold cacheApply at h
  split at h
  · split at h
    · cases hsend : cliClientSend loc d with
      | none =>
        rw [hsend] at h
        cases h
      | some r' =>
        rw [hsend] at h
        dsimp only at h
        split at h
        · rename_i hown
          cases h
          exact ⟨rfl, hown⟩
        · cases h
    · cases h
  · cases h

/-! ## The streams -/

section Upto
variable {own : ReplyType} {r last : F} {rest before : List F}

theorem not_upto_nil : ¬Upto w own [] before last := by
  rintro ⟨⟨rest, hframes⟩, -, -⟩
  simp at hframes

/-- The frame that ends the stream. -/
theorem upto_of_end (htype : w.getType r = own) :
    Upto w own (r :: rest) before last ↔ before = [] ∧ last = r := by
  constructor
  · rintro ⟨⟨rest', hframes⟩, -, hbefore⟩
    rcases before with _ | ⟨r', before⟩
    · obtain ⟨rfl, -⟩ := List.cons_eq_cons.mp hframes
      exact ⟨rfl, rfl⟩
    · obtain ⟨rfl, -⟩ := List.cons_eq_cons.mp hframes
      exact absurd htype (hbefore r List.mem_cons_self).2
  · rintro ⟨rfl, rfl⟩
    exact ⟨⟨rest, rfl⟩, htype, by simp⟩

theorem not_upto_of_error (hown : own ≠ .error) (herror : w.getType r = .error) :
    ¬Upto w own (r :: rest) before last := by
  rintro ⟨⟨rest', hframes⟩, hlast, hbefore⟩
  rcases before with _ | ⟨r', before⟩
  · obtain ⟨rfl, -⟩ := List.cons_eq_cons.mp hframes
    exact hown (hlast.symm.trans herror)
  · obtain ⟨rfl, -⟩ := List.cons_eq_cons.mp hframes
    exact (hbefore r List.mem_cons_self).1 herror

/-- A frame before the end. -/
theorem upto_cons (herror : w.getType r ≠ .error) (hend : w.getType r ≠ own) :
    Upto w own (r :: rest) before last ↔
      ∃ before', before = r :: before' ∧ Upto w own rest before' last := by
  constructor
  · rintro ⟨⟨rest', hframes⟩, hlast, hbefore⟩
    rcases before with _ | ⟨r', before⟩
    · obtain ⟨rfl, -⟩ := List.cons_eq_cons.mp hframes
      exact absurd hlast hend
    · obtain ⟨rfl, hrest⟩ := List.cons_eq_cons.mp hframes
      exact ⟨before, rfl, ⟨rest', hrest⟩, hlast,
        fun r' hr' => hbefore r' (List.mem_cons_of_mem _ hr')⟩
  · rintro ⟨before', rfl, ⟨rest', rfl⟩, hlast, hbefore⟩
    refine ⟨⟨rest', rfl⟩, hlast, fun r' hr' => ?_⟩
    rcases List.mem_cons.mp hr' with rfl | hr'
    · exact ⟨herror, hend⟩
    · exact hbefore r' hr'

/-- A stream has one end. -/
theorem Upto.unique {frames before' : List F} {last' : F} (h : Upto w own frames before last)
    (h' : Upto w own frames before' last') (hown : own ≠ .error) :
    before = before' ∧ last = last' := by
  induction frames generalizing before before' with
  | nil => exact absurd h not_upto_nil
  | cons r rest ih =>
    by_cases hend : w.getType r = own
    · obtain ⟨rfl, rfl⟩ := (upto_of_end hend).mp h
      obtain ⟨rfl, rfl⟩ := (upto_of_end hend).mp h'
      exact ⟨rfl, rfl⟩
    · by_cases herror : w.getType r = .error
      · exact absurd h (not_upto_of_error hown herror)
      · obtain ⟨tail, rfl, htail⟩ := (upto_cons herror hend).mp h
        obtain ⟨tail', rfl, htail'⟩ := (upto_cons herror hend).mp h'
        obtain ⟨rfl, rfl⟩ := ih htail htail'
        exact ⟨rfl, rfl⟩

end Upto

theorem loadEnds_of_loadEnd {status : LoadStatus} {r : F} {rest : List F}
    (htype : w.getType r = .loadEnd) :
    LoadEnds w status (r :: rest) ↔ w.loadEnd r = some status := by
  simp [LoadEnds, upto_of_end htype]

theorem loadEnds_cons {status : LoadStatus} {r : F} {rest : List F}
    (herror : w.getType r ≠ .error) (hend : w.getType r ≠ .loadEnd) :
    LoadEnds w status (r :: rest) ↔ LoadEnds w status rest := by
  unfold LoadEnds
  constructor
  · rintro ⟨before, last, hupto, hstatus⟩
    obtain ⟨before', -, hrest⟩ := (upto_cons herror hend).mp hupto
    exact ⟨before', last, hrest, hstatus⟩
  · rintro ⟨before, last, hupto, hstatus⟩
    exact ⟨r :: before, last, (upto_cons herror hend).mpr ⟨before, rfl, hupto⟩, hstatus⟩

/-- **The loop of `load`** returns 0 exactly at an end that does not say that it failed. -/
theorem loadLoop_exit {frames : List F} :
    (loadLoop w frames).exit = 0 ↔ ∃ status, LoadEnds w status frames ∧ status ≠ .failed := by
  induction frames with
  | nil => simp [loadLoop, Result.fail, LoadEnds, not_upto_nil]
  | cons r rest ih =>
    unfold loadLoop
    split
    · rename_i htype
      simp only [loadEnds_of_loadEnd htype]
      split
      · rename_i hstatus
        simp [hstatus, Result.fail]
      · rename_i hstatus
        simp [hstatus, Result.fail]
      · rename_i status hfailed hstatus
        simp only [Result.ok, true_iff]
        exact ⟨status, hstatus, fun hf => hfailed (hf ▸ rfl)⟩
    · rename_i herror
      simp [LoadEnds, not_upto_of_error _ herror, Result.fail]
    · rename_i hend herror
      simp only [ih, loadEnds_cons herror hend]

/-- A load has one status. -/
theorem loadEnds_unique {frames : List F} {status status' : LoadStatus}
    (h : LoadEnds w status frames) (h' : LoadEnds w status' frames) : status = status' := by
  obtain ⟨before, last, hupto, hstatus⟩ := h
  obtain ⟨before', last', hupto', hstatus'⟩ := h'
  obtain ⟨-, rfl⟩ := hupto.unique hupto' (by simp)
  exact Option.some.inj (hstatus.symm.trans hstatus')

/-- A download that comes to its end with all writes from `written` on complete. -/
def Ends (w : Wire F) (loc : Local) (written : Nat) (frames : List F) : Prop :=
  ∃ data last, Upto w .getEnd frames data last ∧
    ∀ k < data.countP (fun r => w.getType r = .getData ∧ w.decodes r),
      loc.writes (written + k) = true

/-- A chunk that is written. -/
theorem ends_cons_written {written : Nat} {r : F} {rest : List F}
    (htype : w.getType r = .getData) (hdecodes : w.decodes r = true) :
    Ends w loc written (r :: rest) ↔
      loc.writes written = true ∧ Ends w loc (written + 1) rest := by
  have hcons : ∀ {before last}, Upto w .getEnd (r :: rest) before last ↔
      ∃ before', before = r :: before' ∧ Upto w .getEnd rest before' last :=
    upto_cons (by simp [htype]) (by simp [htype])
  have hcount : ∀ data : List F,
      (r :: data).countP (fun r => w.getType r = .getData ∧ w.decodes r) =
        data.countP (fun r => w.getType r = .getData ∧ w.decodes r) + 1 :=
    fun data => List.countP_cons_of_pos (by simp [htype, hdecodes])
  constructor
  · rintro ⟨data, last, hupto, hwrites⟩
    obtain ⟨data, rfl, hrest⟩ := hcons.mp hupto
    rw [hcount] at hwrites
    refine ⟨by simpa using hwrites 0 (by omega), data, last, hrest, fun k hk => ?_⟩
    have hnext := hwrites (k + 1) (by omega)
    rwa [show written + (k + 1) = written + 1 + k by omega] at hnext
  · rintro ⟨hwrite, data, last, hupto, hwrites⟩
    refine ⟨r :: data, last, hcons.mpr ⟨data, rfl, hupto⟩, ?_⟩
    rw [hcount]
    intro k hk
    rcases k with _ | k
    · exact hwrite
    · have hnext := hwrites k (by omega)
      rwa [show written + 1 + k = written + (k + 1) by omega] at hnext

/-- A frame that is passed over. -/
theorem ends_cons_passed {written : Nat} {r : F} {rest : List F}
    (herror : w.getType r ≠ .error) (hend : w.getType r ≠ .getEnd)
    (hpassed : ¬(w.getType r = .getData ∧ w.decodes r = true)) :
    Ends w loc written (r :: rest) ↔ Ends w loc written rest := by
  have hcount : ∀ data : List F,
      (r :: data).countP (fun r => w.getType r = .getData ∧ w.decodes r) =
        data.countP (fun r => w.getType r = .getData ∧ w.decodes r) :=
    fun data => List.countP_cons_of_neg (by simpa using hpassed)
  constructor
  · rintro ⟨data, last, hupto, hwrites⟩
    obtain ⟨data, rfl, hrest⟩ := (upto_cons herror hend).mp hupto
    rw [hcount] at hwrites
    exact ⟨data, last, hrest, hwrites⟩
  · rintro ⟨data, last, hupto, hwrites⟩
    exact ⟨r :: data, last, (upto_cons herror hend).mpr ⟨data, rfl, hupto⟩, by rwa [hcount]⟩

/-- **The loop of `get`** returns 0 exactly if the stream comes to its end and no write has
been short. -/
theorem getLoop_exit {frames : List F} {written : Nat} {shortWrite : Bool} {shown : List F} :
    (getLoop w loc written shortWrite shown frames).exit = 0 ↔
      shortWrite = false ∧ Ends w loc written frames := by
  induction frames generalizing written shortWrite shown with
  | nil => simp [getLoop, Ends, not_upto_nil]
  | cons r rest ih =>
    unfold getLoop
    split
    · rename_i htype
      by_cases hdecodes : w.decodes r = true
      · rw [if_pos hdecodes, ih, ends_cons_written htype hdecodes]
        simp [and_assoc]
      · rw [if_neg hdecodes, ih,
          ends_cons_passed (by simp [htype]) (by simp [htype]) (fun h => hdecodes h.2)]
    · rename_i htype
      have hends : Ends w loc written (r :: rest) :=
        ⟨[], r, (upto_of_end htype).mpr ⟨rfl, rfl⟩, by simp⟩
      by_cases hshort : shortWrite = true <;> simp [hshort, hends, Result.ok]
    · rename_i htype
      simp [Ends, not_upto_of_error _ htype]
    · rename_i hdata hend herror
      rw [ih, ends_cons_passed herror hend (fun h => hdata h.1)]

/-- `get` returns 0 for a start frame with a stream that comes to its end. -/
theorem cmdGet_exit :
    (cmdGet w loc d).exit = 0 ↔ loc.outputOpens = true ∧ ∃ start rest,
      received loc d .get = start :: rest ∧ w.getType start = .getResponseStart ∧
        Ends w loc 0 rest := by
  have hsend : cliClientSend loc d = (received loc d .get).head? :=
    cliClientSend_eq loc d (by simp)
  unfold cmdGet
  rw [hsend]
  cases hframes : received loc d .get with
  | nil => simp [Result.fail]
  | cons start rest =>
    have htail : d.replies.tail = rest := by
      rw [received_eq loc d (by simp)] at hframes
      split at hframes
      · rw [hframes]
        rfl
      · cases hframes
    by_cases hstart : w.getType start = .getResponseStart
    · by_cases hopens : loc.outputOpens = true
      · simp [hstart, hopens, htail, getLoop_exit]
      · simp [hstart, hopens, Result.fail]
    · simp [hstart, Result.fail]

end Kinds

/-! ## The commands -/

section Commands
variable {w : Wire F} {loc : Local} {d : Daemon F}

/-- The first reply confirms. -/
theorem ownSuccess_of_send {cmd : Command} {r : F}
    (hput : cmd ≠ .put) (hget : cmd ≠ .get) (hload : cmd ≠ .load)
    (h : cliClientSend loc d = some r ∧ Confirms w cmd r) :
    OwnSuccess w cmd (received loc d cmd) := by
  obtain ⟨hsend, hconfirms⟩ := h
  rw [cliClientSend_eq loc d hput] at hsend
  unfold OwnSuccess
  split
  · exact absurd rfl hget
  · exact absurd rfl hload
  · exact ⟨r, hsend, hconfirms⟩

/-- Success of a handler, as the exit status should have it. -/
def Succeeds (w : Wire F) (loc : Local) (d : Daemon F) (cmd : Command) : Prop :=
  OwnSuccess w cmd (received loc d cmd) ∨ (cmd = .cacheSize ∧ (handler w loc d cmd).staged)

theorem truthful_iff_handler {cmd : Command} (hconnects : (cmd.selfConnects || d.connects) = true) :
    Truthful w loc d cmd ↔ ((handler w loc d cmd).exit = 0 → Succeeds w loc d cmd) := by
  have hoffs : offs w loc d cmd = handler w loc d cmd := if_pos hconnects
  unfold Truthful Succeeds
  rw [hoffs]

theorem truthful_of_unreachable {cmd : Command}
    (hconnects : ¬(cmd.selfConnects || d.connects) = true) : Truthful w loc d cmd := by
  intro h
  rw [offs, if_neg hconnects] at h
  cases h

/-- The handlers that test a status. -/
theorem succeeds_of_status {cmd : Command} {own : ReplyType}
    (hhandler : handler w loc d cmd = ifStatusOk w loc d own)
    (hconfirms : Confirms w cmd = StatusOk w own) (hput : cmd ≠ .put) (hget : cmd ≠ .get)
    (hload : cmd ≠ .load) (h : (handler w loc d cmd).exit = 0) : Succeeds w loc d cmd := by
  rw [hhandler] at h
  obtain ⟨r, hsend, hok⟩ := ifStatusOk_exit h
  exact .inl (ownSuccess_of_send hput hget hload ⟨hsend, by rwa [hconfirms]⟩)

/-- The handlers that take a document out of the reply. -/
theorem succeeds_of_json {cmd : Command} {own : ReplyType} {r : F} {json : Text}
    (hreply : jsonReply w loc d own = some (r, json))
    (hconfirms : Confirms w cmd = HasJson w own) (hput : cmd ≠ .put) (hget : cmd ≠ .get)
    (hload : cmd ≠ .load) : Succeeds w loc d cmd := by
  obtain ⟨hsend, hjson⟩ := jsonReply_some hreply
  exact .inl (ownSuccess_of_send hput hget hload ⟨hsend, by rwa [hconfirms]⟩)

theorem cmdPut_succeeds (h : (cmdPut w loc d).exit = 0) : Succeeds w loc d .put := by
  obtain ⟨r, hresponse, hdecoded⟩ := ifDecoded_exit h
  refine .inl ⟨r, ?_, hdecoded⟩
  split at hresponse
  · rename_i huploads
    rw [show received loc d .put = d.replies from if_pos huploads]
    exact hresponse
  · cases hresponse

theorem cmdPeerInfo_succeeds {qr : Bool} (h : (cmdPeerInfo w loc d qr).exit = 0) :
    Succeeds w loc d (.peerInfo qr) := by
  by_cases hdelivered : (if qr then loc.outputOpens && loc.writes 0 else loc.rendered) = true
  · rw [cmdPeerInfo, if_pos hdelivered] at h
    obtain ⟨r, hsend, hdecoded⟩ := ifDecoded_exit h
    exact .inl (ownSuccess_of_send (by simp) (by simp) (by simp) ⟨hsend, hdecoded⟩)
  · rw [cmdPeerInfo, if_neg hdelivered] at h
    cases h

theorem cmdBootstrapList_succeeds (h : (cmdBootstrapList w loc d).exit = 0) :
    Succeeds w loc d .bootstrapList := by
  obtain ⟨r, hsend, hdecoded⟩ := ifDecoded_exit h
  exact .inl (ownSuccess_of_send (by simp) (by simp) (by simp) ⟨hsend, hdecoded⟩)

theorem cmdConfigShow_succeeds (h : (cmdConfigShow w loc d).exit = 0) :
    Succeeds w loc d .configShow := by
  unfold cmdConfigShow at h
  split at h
  · rename_i hreply
    exact succeeds_of_json hreply rfl (by simp) (by simp) (by simp)
  · cases h

theorem cmdConfigGet_succeeds {field : Text} (h : (cmdConfigGet w loc d field).exit = 0) :
    Succeeds w loc d (.configGet field) := by
  unfold cmdConfigGet at h
  split at h
  · rename_i hreply
    exact succeeds_of_json hreply rfl (by simp) (by simp) (by simp)
  · cases h

theorem cmdHealth_succeeds (h : (cmdHealth w loc d).exit = 0) : Succeeds w loc d .health := by
  unfold cmdHealth at h
  split at h
  · rename_i hreply
    exact succeeds_of_json hreply rfl (by simp) (by simp) (by simp)
  · cases h

/-- A size that was not applied has been staged. -/
theorem cmdCacheSize_succeeds (h : (cmdCacheSize w loc d).exit = 0) :
    Succeeds w loc d .cacheSize := by
  cases happly : cacheApply w loc d .cacheResizeResponse with
  | applied r =>
    exact .inl (ownSuccess_of_send (by simp) (by simp) (by simp) (cacheApply_applied happly))
  | refused =>
    rw [cmdCacheSize, happly] at h
    cases h
  | unreachable =>
    refine .inr ⟨rfl, ?_⟩
    show (cmdCacheSize w loc d).staged = true
    rw [cmdCacheSize, happly] at h ⊢
    dsimp only at h ⊢
    split at h
    · rw [if_pos (by assumption)]
    · cases h

theorem cmdCacheGc_succeeds (h : (cmdCacheGc w loc d).exit = 0) : Succeeds w loc d .cacheGc := by
  unfold cmdCacheGc at h
  split at h
  · split at h
    · rename_i happly
      exact .inl (ownSuccess_of_send (by simp) (by simp) (by simp) (cacheApply_applied happly))
    · cases h
    · cases h
  · cases h

/-- The handlers that return 0 in any case. -/
theorem showAny_truthful_iff {cmd : Command} {own : ReplyType}
    (hhandler : handler w loc d cmd = showAny w loc d own) (hget : cmd ≠ .get)
    (hload : cmd ≠ .load) (hsize : cmd ≠ .cacheSize) :
    ((handler w loc d cmd).exit = 0 → Succeeds w loc d cmd) ↔
      ∃ r, (received loc d cmd).head? = some r ∧ Confirms w cmd r := by
  have hexit : (handler w loc d cmd).exit = 0 := by
    rw [hhandler]
    exact showAny_exit own
  have howns : OwnSuccess w cmd (received loc d cmd) ↔
      ∃ r, (received loc d cmd).head? = some r ∧ Confirms w cmd r := by
    unfold OwnSuccess
    split
    · exact absurd rfl hget
    · exact absurd rfl hload
    · rfl
  simp [Succeeds, hexit, hsize, howns]

/-- The handlers that take everything but an error for success. -/
theorem unlessError_truthful_iff {cmd : Command} {inputRead : Bool}
    (hhandler : handler w loc d cmd = unlessError w loc d inputRead)
    (hconfirms : ∀ r, Confirms w cmd r ↔ w.acknowledges cmd r = true) (hput : cmd ≠ .put)
    (hget : cmd ≠ .get) (hload : cmd ≠ .load) (hsize : cmd ≠ .cacheSize) :
    ((handler w loc d cmd).exit = 0 → Succeeds w loc d cmd) ↔
      (inputRead = true → ∀ r, (received loc d cmd).head? = some r →
        w.getType r ≠ .error → w.acknowledges cmd r = true) := by
  have howns : OwnSuccess w cmd (received loc d cmd) ↔
      ∃ r, (received loc d cmd).head? = some r ∧ w.acknowledges cmd r = true := by
    unfold OwnSuccess
    split
    · exact absurd rfl hget
    · exact absurd rfl hload
    · simp only [hconfirms]
  rw [hhandler, unlessError_exit, cliClientSend_eq loc d hput]
  simp only [Succeeds, hsize, false_and, or_false, howns]
  constructor
  · intro h hinput r hr herror
    obtain ⟨r', hr', hack⟩ := h ⟨hinput, r, hr, herror⟩
    rw [hr] at hr'
    obtain rfl := Option.some.inj hr'
    exact hack
  · rintro h ⟨hinput, r, hr, herror⟩
    exact ⟨r, hr, h hinput r hr herror⟩

/-- `get` errs over frames that it cannot decode. -/
theorem cmdGet_truthful_iff :
    ((cmdGet w loc d).exit = 0 → Succeeds w loc d .get) ↔ Candid w loc d .get := by
  rw [cmdGet_exit]
  simp only [Succeeds, reduceCtorEq, false_and, or_false]
  constructor
  · intro h hopens start rest data last hframes hstart hupto hwrites
    have hends : Ends w loc 0 rest :=
      ⟨data, last, hupto, fun k hk => by simpa using hwrites k hk⟩
    obtain ⟨start', rest', data', last', hframes', -, hdecodes, hupto', hdata'⟩ :=
      h ⟨hopens, start, rest, hframes, hstart, hends⟩
    obtain ⟨rfl, rfl⟩ := List.cons_eq_cons.mp (hframes.symm.trans hframes')
    obtain ⟨rfl, -⟩ := hupto.unique hupto' (by simp)
    exact ⟨hdecodes, hdata'⟩
  · rintro h ⟨hopens, start, rest, hframes, hstart, data, last, hupto, hwrites⟩
    have hcandid := h hopens start rest data last hframes hstart hupto
      (fun k hk => by simpa using hwrites k hk)
    exact ⟨start, rest, data, last, hframes, hstart, hcandid.1, hupto, hcandid.2⟩

/-- `load` errs over a status that it does not know. -/
theorem cmdLoad_truthful_iff :
    ((cmdLoad w loc d).exit = 0 → Succeeds w loc d .load) ↔ Candid w loc d .load := by
  have hexit : (cmdLoad w loc d).exit = 0 ↔
      ∃ status, LoadEnds w status (received loc d .load) ∧ status ≠ .failed := by
    unfold cmdLoad
    rw [received_eq loc d (by simp)]
    by_cases hsend : loc.encodes ∧ d.sends 0
    · rw [if_pos hsend, if_pos hsend, loadLoop_exit]
    · rw [if_neg hsend, if_neg hsend]
      simp [Result.fail, LoadEnds, not_upto_nil]
  rw [hexit]
  simp only [Succeeds, reduceCtorEq, false_and, or_false]
  constructor
  · intro h code hother
    rcases h ⟨.other code, hother, by simp⟩ with hloaded | hpartly
    · cases loadEnds_unique hother hloaded
    · cases loadEnds_unique hother hpartly
  · rintro h ⟨status, hends, hfailed⟩
    cases status with
    | loaded => exact .inl hends
    | partlyLoaded => exact .inr hends
    | failed => exact absurd rfl hfailed
    | other code => exact absurd hends (h code)

/-- **The exit status tells the truth exactly when the daemon gives no occasion to err.**  Without
a connection there is nothing to err about, and then the command is taken handler by handler.  The
handlers fall into four groups: those that look at nothing, those that look for an error only, the
two that read a stream to its end, and those that look for their own reply.  Only the last ones
are right whatever the daemon sends; for the others `Candid` says what it must not send. -/
theorem exit_status_truthful_iff (w : Wire F) (loc : Local) (d : Daemon F) (cmd : Command) :
    Truthful w loc d cmd ↔
      ((cmd.selfConnects || d.connects) = true → Candid w loc d cmd) := by
  by_cases hconnects : (cmd.selfConnects || d.connects) = true
  · simp only [hconnects, forall_const]
    rw [truthful_iff_handler hconnects]
    cases cmd with
    -- These look at nothing.
    | blockPut | blockGet | peerList | friendList =>
      exact showAny_truthful_iff rfl (by simp) (by simp) (by simp)
    -- These look for an error only.
    | peerConnect | friendAdd =>
      exact unlessError_truthful_iff rfl (fun r => Iff.rfl) (by simp) (by simp) (by simp) (by simp)
    | friendRemove =>
      have hhandler : handler w loc d .friendRemove = unlessError w loc d true := rfl
      refine (unlessError_truthful_iff hhandler (fun r => Iff.rfl) (by simp) (by simp) (by simp)
        (by simp)).trans ?_
      exact ⟨fun h => h rfl, fun h _ => h⟩
    | get => exact cmdGet_truthful_iff
    | load => exact cmdLoad_truthful_iff
    -- All the others look for their own reply.
    | put => exact iff_of_true cmdPut_succeeds trivial
    | peerInfo qr => exact iff_of_true cmdPeerInfo_succeeds trivial
    | bootstrapList => exact iff_of_true cmdBootstrapList_succeeds trivial
    | configShow => exact iff_of_true cmdConfigShow_succeeds trivial
    | configGet field => exact iff_of_true cmdConfigGet_succeeds trivial
    | health => exact iff_of_true cmdHealth_succeeds trivial
    | cacheSize => exact iff_of_true cmdCacheSize_succeeds trivial
    | cacheGc => exact iff_of_true cmdCacheGc_succeeds trivial
    | blockDelete | ephemeralList | ephemeralCommit | ephemeralDelete | pin | unpin
    | bootstrapAdd | bootstrapRemove | configSet | configAdd | configRemove | configReload =>
      exact iff_of_true (succeeds_of_status rfl rfl (by simp) (by simp) (by simp)) trivial
  · exact iff_of_true (truthful_of_unreachable hconnects) (fun h => absurd h hconnects)

end Commands

/-! ## A failed write -/

/-- A store that cannot take the block: the daemon is reached and answers with an error. -/
def storeFull : Daemon ReplyType where
  connects := true
  sends := fun _ => true
  replies := [.error]

/-- Frames that are nothing but their type. -/
def typesOnly : Wire ReplyType where
  getType := id
  decodes := fun _ => true
  status := fun _ => none
  loadEnd := fun _ => none
  jsonData := fun _ => none
  acknowledges := fun _ _ => false

/-- A caller for whom everything works. -/
def soundCaller : Local where
  encodes := true
  inputRead := true
  upload := ⟨true, 1, true, true, [.bytes 1]⟩
  outputOpens := true
  writes := fun _ => true
  rendered := true
  lookup := fun _ _ => none
  stages := true

/-- **`offs block put` returns 0 though the daemon refused the block.** -/
theorem block_put_hides_error : ¬Truthful typesOnly soundCaller storeFull .blockPut := by
  intro h
  have hexit : (offs typesOnly soundCaller storeFull .blockPut).exit = 0 := rfl
  rcases h hexit with ⟨r, hr, htype, -⟩ | ⟨hsize, -⟩
  · have herror : r = .error := (Option.some.inj hr).symm
    rw [herror] at htype
    cases htype
  · cases hsize

end Offs.Commands
