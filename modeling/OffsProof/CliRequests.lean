import OffsProof.CliDispatch
import OffsProof.Samples

/-! # The requests of the command line

What can be sent to the daemon with `offs`: `Sendable` says it without the handlers, from the
texts and bytes that a request has.  The handlers send nothing else (`handler_sound`), and
everything that is sendable with some command line (`handler_complete`), so that the command
line is a notation for just these requests.  What is missing has to do with the places where
an argument is taken for something else: a global option, a flag, the `=` of `config set`, or
the digits of a hash.

An upload is the one request that needs more than its arguments: `cmd_put` looks at the file
first, and a file that cannot be measured, an empty one, or a path that ends with a separator
makes it return before it sends anything (`PutSendable`).  Of the other files on the command
line, those after `--qr` have to be readable within the limit of 2 MiB.

Both directions go handler by handler.  Soundness follows the loops over the arguments and
keeps, as in `PutRead`, what has been read so far; completeness gives one command line for each
request, in the plainest form the handler has for it.
-/
namespace Offs.Dispatch
open CText
open Offs.Main (Globals GlobalOption liftGlobals kept)
open Offs.Block (BlockRequest blockRequest rawBytes)

/-! ## The requests that can be sent -/

/-- The options of an upload that can be asked for. -/
structure OptionsSendable (o : Put.Options) : Prop where
  recycler : ∀ url ∈ o.recycler, IsArg url
  recycled : o.recycler = none → o.recycleEphemeral = .none
  tupleSize : ∀ n ∈ o.tupleSize, 0 < n ∧ n < 2 ^ 63

/-- A path from which an upload can be made.  It has to be an argument, but a path that begins
as a flag does is taken for one. -/
structure PathSendable (filePath : Text) : Prop where
  path : IsArg filePath
  noFlag : (lit "--").isPrefixOf filePath = false

/-- The uploads that can be asked for: there is a file of that size, and not an empty one, under
a path that ends with that name. -/
structure PutSendable (caller : Caller) (request : Put.PutRequest) : Prop where
  file : ∃ filePath, PathSendable filePath ∧
    caller.measured filePath = some request.streamLength ∧
    Put.baseName filePath = request.fileName
  nonempty : 0 < request.streamLength
  fileName : request.fileName ≠ []
  contentType : request.contentType = caller.mimeTypeFromExtension request.fileName
  options : OptionsSendable request.options

/-- The bytes that `peerBytes` can send, with a format for those of an argument. -/
def BytesSendable (caller : Caller) (textFormat format : Nat) (data : List UInt8) : Prop :=
  (format = 2 ∧ ∃ path, IsArg path ∧ readFileContents (caller.file path) = .ok data) ∨
  (format = textFormat ∧ IsArg (textOf data) ∧ textOf data ≠ lit "--qr")

/-- The blocks that can be asked for: a hash of 32 bytes can always be given to `delete`, as
64 hex digits, but just for that reason no hash that consists of 64 hex digits. -/
def BlockSendable (caller : Caller) : BlockRequest → Prop
  | .put data _ => IsArg (textOf data)
  | .get hash => IsArg (textOf hash)
  | .delete hash _ =>
    (caller.allocates = true ∧ hash.length = 32) ∨
    (IsArg (textOf hash) ∧ ¬(caller.allocates = true ∧ Block.IsHexHash (textOf hash)))

/-- **The requests that can be sent**, said without the handlers. -/
def Sendable (caller : Caller) : Request → Prop
  | .put request => PutSendable caller request
  | .get ori outputPath => IsArg ori ∧ ∀ path ∈ outputPath, IsArg path
  | .load ori => IsArg ori ∧ ori ≠ lit "--help"
  | .block request => BlockSendable caller request
  | .rep _ url => IsArg url ∧ url ≠ lit "--help"
  | .peerInfo qrPath => ∀ path ∈ qrPath, IsArg path
  | .peerConnect format data => BytesSendable caller 1 format data
  | .friendAdd format data => BytesSendable caller 0 format data
  | .friendRemove nodeId => IsArg (textOf nodeId)
  | .bootstrapAdd endpoint => IsArg endpoint
  | .bootstrapRemove endpoint => IsArg endpoint
  | .configShow field => ∀ name ∈ field, IsArg name
  -- `set` cuts at the first `=`, and `add` loses a value that is a global option.
  | .configSet field value =>
    CString field ∧ CString value ∧ ('=' ∉ field ∨ GlobalOption.ofToken value = none)
  | .ephemeralList => True
  | .peerList => True
  | .friendList => True
  | .bootstrapList => True
  | .configReload => True
  | .health => True
  | .status => True

section Sound
variable {caller : Caller} {args : List Text} {request : Request}

/-- What the loop of `cmd_put` has read so far. -/
structure PutRead (filePath : Option Text) (o : Put.Options) : Prop where
  path : ∀ path ∈ filePath, PathSendable path
  recycler : ∀ url ∈ o.recycler, IsArg url
  tupleSize : ∀ n ∈ o.tupleSize, 0 < n ∧ n < 2 ^ 63

theorem tupleSize_bounds {t : Text} {n : Nat} (h : Put.tupleSize t = some n) :
    0 < n ∧ n < 2 ^ 63 := by
  unfold Put.tupleSize at h
  split at h
  · split at h
    · cases h
    · rename_i negative n' _ hn
      obtain rfl := Option.some.inj h
      have hpos : n' ≠ 0 := fun h => hn (Or.inr h)
      omega
  · cases h

theorem putArgs_sound {filePath : Option Text} {o options : Put.Options} {path : Text}
    (hargs : ∀ t ∈ args, IsArg t) (hread : PutRead filePath o)
    (h : Put.putArgs filePath o args = .accepted path options) :
    PathSendable path ∧ OptionsSendable options := by
  fun_induction Put.putArgs filePath o args with
  | case3 o path' hmode =>
    obtain ⟨rfl, rfl⟩ := Put.Parsed.accepted.inj h
    exact ⟨hread.path path' rfl, hread.recycler,
      fun hnone => not_not.mp fun hne => hmode ⟨hne, hnone⟩, hread.tupleSize⟩
  | case5 filePath o rest _ ih =>
    exact ih (fun t ht => hargs t (List.mem_cons_of_mem _ ht))
      ⟨hread.path, hread.recycler, hread.tupleSize⟩ h
  | case7 filePath o url rest _ _ ih =>
    refine ih (fun t ht => hargs t (List.mem_cons_of_mem _ (List.mem_cons_of_mem _ ht)))
      ⟨hread.path, ?_, hread.tupleSize⟩ h
    intro url' hurl
    obtain rfl := Option.some.inj hurl
    exact hargs url (List.mem_cons_of_mem _ List.mem_cons_self)
  | case9 filePath o text rest mode hmode _ _ _ ih =>
    exact ih (fun t ht => hargs t (List.mem_cons_of_mem _ (List.mem_cons_of_mem _ ht)))
      ⟨hread.path, hread.recycler, hread.tupleSize⟩ h
  | case12 filePath o text rest n hn _ _ _ _ ih =>
    refine ih (fun t ht => hargs t (List.mem_cons_of_mem _ (List.mem_cons_of_mem _ ht)))
      ⟨hread.path, hread.recycler, ?_⟩ h
    intro m hm
    obtain rfl := Option.some.inj hm
    exact tupleSize_bounds hn
  | case15 filePath o arg rest _ _ _ _ _ hflag ih =>
    refine ih (fun t ht => hargs t (List.mem_cons_of_mem _ ht))
      ⟨?_, hread.recycler, hread.tupleSize⟩ h
    intro path' hpath
    cases filePath with
    | none =>
      obtain rfl := Option.some.inj hpath
      exact ⟨hargs arg List.mem_cons_self, Bool.eq_false_iff.mpr hflag⟩
    | some first => exact hread.path path' hpath
  | _ => cases h

theorem getFlags_sound {ori ori' : Text} {outputPath outputPath' : Option Text}
    (hargs : ∀ t ∈ args, IsArg t) (hpath : ∀ path ∈ outputPath, IsArg path)
    (h : Get.getFlags ori outputPath args = .get ori' outputPath') :
    ori' = ori ∧ ∀ path ∈ outputPath', IsArg path := by
  fun_induction Get.getFlags ori outputPath args with
  | case1 outputPath =>
    obtain ⟨rfl, rfl⟩ := Get.GetArgs.get.inj h
    exact ⟨rfl, hpath⟩
  | case2 => cases h
  | case3 outputPath arg _ =>
    obtain ⟨rfl, rfl⟩ := Get.GetArgs.get.inj h
    exact ⟨rfl, hpath⟩
  | case4 outputPath next rest ih =>
    refine ih (fun t ht => hargs t (List.mem_cons_of_mem _ (List.mem_cons_of_mem _ ht))) ?_ h
    intro path hnext
    obtain rfl := Option.some.inj hnext
    exact hargs next (List.mem_cons_of_mem _ List.mem_cons_self)
  | case5 => cases h
  | case6 outputPath arg next rest _ _ ih =>
    exact ih (fun t ht => hargs t (List.mem_cons_of_mem _ ht)) hpath h

theorem not_help_of_not_asksHelp (h : ¬asksHelp args = true) {t : Text} (ht : t ∈ args) :
    t ≠ lit "--help" :=
  fun hhelp => h (List.any_eq_true.mpr ⟨t, ht, decide_eq_true hhelp⟩)

theorem blockRequest_sound {block : BlockRequest} (hargs : ∀ t ∈ args, IsArg t)
    (h : blockRequest caller.allocates args = some block) : BlockSendable caller block := by
  rcases args with _ | ⟨subcommand, _ | ⟨text, options⟩⟩
  · cases h
  · cases h
  have htext : IsArg text := hargs text (List.mem_cons_of_mem _ List.mem_cons_self)
  have hbytes : textOf (rawBytes text) = text := textOf_rawBytes htext.cString
  rw [blockRequest] at h
  split at h
  · obtain rfl := Option.some.inj h
    show IsArg (textOf (rawBytes text))
    rwa [hbytes]
  split at h
  · obtain rfl := Option.some.inj h
    show IsArg (textOf (rawBytes text))
    rwa [hbytes]
  split at h
  · split at h
    · obtain rfl := Option.some.inj h
      by_cases hhash : caller.allocates = true ∧ Block.IsHexHash text
      · refine Or.inl ⟨hhash.1, ?_⟩
        rw [Block.deleteHash, hhash.1, Block.hexDecodeHash_of_hash hhash.2]
        exact hhash.2.length_decodePairs
      · refine Or.inr ?_
        rw [Block.deleteHash, Block.hexDecodeHash_of_not hhash, Option.getD_none, hbytes]
        exact ⟨htext, hhash⟩
    · cases h
  · cases h

theorem peerInfoArgs_sound {qrPath : Option Text} (hargs : ∀ t ∈ args, IsArg t)
    (hpath : ∀ path ∈ qrPath, IsArg path) (h : peerInfoArgs qrPath args = .asks request) :
    Sendable caller request := by
  fun_induction peerInfoArgs qrPath args with
  | case1 qrPath =>
    obtain rfl := Parsed.asks.inj h
    exact hpath
  | case2 qrPath path rest ih =>
    refine ih (fun t ht => hargs t (List.mem_cons_of_mem _ (List.mem_cons_of_mem _ ht))) ?_ h
    intro path' hpath'
    obtain rfl := Option.some.inj hpath'
    exact hargs path (List.mem_cons_of_mem _ List.mem_cons_self)
  | _ => cases h

theorem peerBytes_sound {textFormat : Nat} {make : Nat → List UInt8 → Request}
    (hargs : ∀ t ∈ args, IsArg t) (h : peerBytes caller textFormat make args = .asks request) :
    ∃ format data, request = make format data ∧ BytesSendable caller textFormat format data := by
  cases args with
  | nil => cases h
  | cons text rest =>
    simp only [peerBytes] at h
    split at h
    · cases rest with
      | nil => cases h
      | cons path rest =>
        have hpath : IsArg path := hargs path (List.mem_cons_of_mem _ List.mem_cons_self)
        cases hfile : readFileContents (caller.file path) with
        | ok data =>
          simp only [hfile] at h
          exact ⟨2, data, (Parsed.asks.inj h).symm, Or.inl ⟨rfl, path, hpath, hfile⟩⟩
        | _ =>
          simp only [hfile] at h
          cases h
    · rename_i hqr
      have htext : IsArg text := hargs text List.mem_cons_self
      have hbytes : textOf (rawBytes text) = text := textOf_rawBytes htext.cString
      refine ⟨textFormat, rawBytes text, (Parsed.asks.inj h).symm, Or.inr ⟨rfl, ?_⟩⟩
      rw [hbytes]
      exact ⟨htext, hqr⟩

theorem generateAuth_sound {key : Text} {cost : Nat}
    (h : generateAuth caller key cost args = .asks request) :
    ∃ cost hash, caller.bcryptGenerate key cost = some hash ∧
      request = .configSet (lit "api_key_hash") hash := by
  fun_induction generateAuth caller key cost args with
  | case1 cost hash hhash => exact ⟨cost, hash, hhash, (Parsed.asks.inj h).symm⟩
  | case5 cost value rest cost' hcost ih => exact ih h
  | _ => cases h

theorem configSetArg_sound {t : Text} (ht : CString t) (h : configSetArg t = .asks request) :
    Sendable caller request := by
  have hcut : t.takeWhile (· ≠ '=') ++ t.dropWhile (· ≠ '=') = t := List.takeWhile_append_dropWhile
  unfold configSetArg at h
  split at h
  · cases h
  · rename_i mark value hdrop
    obtain rfl := Parsed.asks.inj h
    rw [hdrop] at hcut
    have hmem : ∀ c ∈ value, c ∈ t := by
      intro c hc
      rw [← hcut]
      exact List.mem_append_right _ (List.mem_cons_of_mem _ hc)
    refine ⟨fun c hc => ht c (List.takeWhile_subset _ hc), fun c hc => ht c (hmem c hc), Or.inl ?_⟩
    intro hmark
    simpa using List.mem_takeWhile_imp hmark

theorem cString_apiKeyHash : CString (lit "api_key_hash") ∧ '=' ∉ lit "api_key_hash" := by
  refine ⟨?_, by decide⟩
  simp [CString, lit]

theorem cmdConfig_sound (hargs : ∀ t ∈ args, IsArg t) (h : cmdConfig caller args = .asks request) :
    Sendable caller request := by
  cases args with
  | nil => cases h
  | cons subcommand rest =>
    have hrest : ∀ t ∈ rest, IsArg t := fun t ht => hargs t (List.mem_cons_of_mem _ ht)
    simp only [cmdConfig] at h
    split at h
    · cases h
    split at h
    · obtain rfl := Parsed.asks.inj h
      intro name hname
      cases hname
    split at h
    · cases rest with
      | nil => cases h
      | cons field rest =>
        obtain rfl := Parsed.asks.inj h
        intro name hname
        obtain rfl := Option.some.inj hname
        exact hrest field List.mem_cons_self
    split at h
    · cases rest with
      | nil => cases h
      | cons text rest => exact configSetArg_sound (hrest text List.mem_cons_self).cString h
    split at h
    · rcases rest with _ | ⟨field, _ | ⟨value, rest⟩⟩
      · cases h
      · cases h
      · obtain rfl := Parsed.asks.inj h
        have hvalue := hrest value (List.mem_cons_of_mem _ List.mem_cons_self)
        exact ⟨(hrest field List.mem_cons_self).cString, hvalue.cString, Or.inr hvalue.plain⟩
    split at h
    · cases rest with
      | nil => cases h
      | cons field rest =>
        obtain rfl := Parsed.asks.inj h
        refine ⟨(hrest field List.mem_cons_self).cString, ?_, Or.inr (by decide)⟩
        simp [CString, lit]
    split at h
    · cases rest with
      | nil => cases h
      | cons hash rest =>
        simp only at h
        split at h
        · obtain rfl := Parsed.asks.inj h
          exact ⟨cString_apiKeyHash.1, (hrest hash List.mem_cons_self).cString,
            Or.inl cString_apiKeyHash.2⟩
        · cases h
    split at h
    · cases rest with
      | nil => cases h
      | cons key rest =>
        obtain ⟨cost, hash, hhash, rfl⟩ := generateAuth_sound h
        exact ⟨cString_apiKeyHash.1, caller.cString_bcrypt key cost hash hhash,
          Or.inl cString_apiKeyHash.2⟩
    split at h
    · obtain rfl := Parsed.asks.inj h
      trivial
    · cases h

theorem pinCommand_sound {op : RepOp} (hargs : ∀ t ∈ args, IsArg t)
    (h : pinCommand op args = .asks request) : Sendable caller request := by
  unfold pinCommand at h
  split at h
  · cases h
  · rename_i hhelp
    rcases args with _ | ⟨url, _ | ⟨extra, rest⟩⟩
    · cases h
    · obtain rfl := Parsed.asks.inj h
      exact ⟨hargs url List.mem_cons_self, not_help_of_not_asksHelp hhelp List.mem_cons_self⟩
    · cases h

theorem cmdLoad_sound (hargs : ∀ t ∈ args, IsArg t) (h : cmdLoad args = .asks request) :
    Sendable caller request := by
  unfold cmdLoad at h
  split at h
  · cases h
  · rename_i hhelp
    rcases args with _ | ⟨ori, _ | ⟨extra, rest⟩⟩
    · cases h
    · obtain rfl := Parsed.asks.inj h
      exact ⟨hargs ori List.mem_cons_self, not_help_of_not_asksHelp hhelp List.mem_cons_self⟩
    · cases h

theorem cmdEphemeral_sound (hargs : ∀ t ∈ args, IsArg t) (h : cmdEphemeral args = .asks request) :
    Sendable caller request := by
  unfold cmdEphemeral at h
  split at h
  · cases h
  rename_i hhelp
  rcases args with _ | ⟨subcommand, _ | ⟨url, _ | ⟨extra, rest⟩⟩⟩
  · cases h
  · simp only at h
    split at h
    · obtain rfl := Parsed.asks.inj h
      trivial
    · cases h
  · have hurl : IsArg url ∧ url ≠ lit "--help" := by
      have hmem : url ∈ [subcommand, url] := List.mem_cons_of_mem _ List.mem_cons_self
      exact ⟨hargs url hmem, not_help_of_not_asksHelp hhelp hmem⟩
    simp only at h
    split at h
    · obtain rfl := Parsed.asks.inj h
      exact hurl
    split at h
    · obtain rfl := Parsed.asks.inj h
      exact hurl
    · cases h
  · cases h

theorem cmdPeer_sound (hargs : ∀ t ∈ args, IsArg t) (h : cmdPeer caller args = .asks request) :
    Sendable caller request := by
  cases args with
  | nil => cases h
  | cons subcommand rest =>
    have hrest : ∀ t ∈ rest, IsArg t := fun t ht => hargs t (List.mem_cons_of_mem _ ht)
    simp only [cmdPeer] at h
    split at h
    · exact peerInfoArgs_sound hrest (fun path hpath => by cases hpath) h
    split at h
    · obtain rfl := Parsed.asks.inj h
      trivial
    split at h
    · obtain ⟨format, data, rfl, hdata⟩ := peerBytes_sound hrest h
      exact hdata
    · cases h

theorem cmdFriend_sound (hargs : ∀ t ∈ args, IsArg t) (h : cmdFriend caller args = .asks request) :
    Sendable caller request := by
  cases args with
  | nil => cases h
  | cons subcommand rest =>
    have hrest : ∀ t ∈ rest, IsArg t := fun t ht => hargs t (List.mem_cons_of_mem _ ht)
    simp only [cmdFriend] at h
    split at h
    · obtain ⟨format, data, rfl, hdata⟩ := peerBytes_sound hrest h
      exact hdata
    split at h
    · cases rest with
      | nil => cases h
      | cons nodeId rest =>
        obtain rfl := Parsed.asks.inj h
        have hnodeId := hrest nodeId List.mem_cons_self
        show IsArg (textOf (rawBytes nodeId))
        rwa [textOf_rawBytes hnodeId.cString]
    split at h
    · obtain rfl := Parsed.asks.inj h
      trivial
    · cases h

theorem cmdBootstrap_sound (hargs : ∀ t ∈ args, IsArg t) (h : cmdBootstrap args = .asks request) :
    Sendable caller request := by
  cases args with
  | nil => cases h
  | cons subcommand rest =>
    have hrest : ∀ t ∈ rest, IsArg t := fun t ht => hargs t (List.mem_cons_of_mem _ ht)
    simp only [cmdBootstrap] at h
    split at h
    · cases rest with
      | nil => cases h
      | cons endpoint rest =>
        obtain rfl := Parsed.asks.inj h
        exact hrest endpoint List.mem_cons_self
    split at h
    · cases rest with
      | nil => cases h
      | cons endpoint rest =>
        obtain rfl := Parsed.asks.inj h
        exact hrest endpoint List.mem_cons_self
    split at h
    · obtain rfl := Parsed.asks.inj h
      trivial
    · cases h

theorem cmdPut_sound (hargs : ∀ t ∈ args, IsArg t) (h : cmdPut caller args = .asks request) :
    Sendable caller request := by
  unfold cmdPut at h
  cases hput : Put.putArgs none .initial args with
  | help => simp [hput] at h
  | refused => simp [hput] at h
  | accepted filePath options =>
    have hread : PutRead none .initial := ⟨by simp, by simp [Put.Options.initial], by
      simp [Put.Options.initial]⟩
    obtain ⟨hpath, hoptions⟩ := putArgs_sound hargs hread hput
    cases hsize : caller.measured filePath with
    | none => simp [hput, hsize] at h
    | some size =>
      simp only [hput, hsize] at h
      split_ifs at h with hempty hname
      obtain rfl := Parsed.asks.inj h
      exact ⟨⟨filePath, hpath, hsize, rfl⟩, Nat.pos_of_ne_zero hempty, hname, rfl, hoptions⟩

theorem cmdGet_sound (hargs : ∀ t ∈ args, IsArg t) (h : cmdGet args = .asks request) :
    Sendable caller request := by
  cases args with
  | nil => cases h
  | cons ori rest =>
    unfold cmdGet at h
    split at h
    · cases h
    · cases h
    · rename_i ori' outputPath hget
      obtain rfl := Parsed.asks.inj h
      have hrest : ∀ t ∈ rest, IsArg t := fun t ht => hargs t (List.mem_cons_of_mem _ ht)
      obtain ⟨rfl, hpath⟩ := getFlags_sound hrest (fun path hpath => by cases hpath) hget
      exact ⟨hargs ori' List.mem_cons_self, hpath⟩

theorem handler_sound {entry : Entry} (hargs : ∀ t ∈ args, IsArg t)
    (h : entry.handler caller args = .asks request) : Sendable caller request := by
  cases entry with
  | put => exact cmdPut_sound hargs h
  | get => exact cmdGet_sound hargs h
  | load => exact cmdLoad_sound hargs h
  | start => cases handler_not_asks (Or.inl rfl) h
  | cache => cases handler_not_asks (Or.inr (Or.inr (Or.inr rfl))) h
  | block =>
    simp only [Entry.handler, cmdBlock] at h
    split at h
    · rename_i block hblock
      obtain rfl := Parsed.asks.inj h
      exact blockRequest_sound hargs hblock
    · cases h
  | ephemeral => exact cmdEphemeral_sound hargs h
  | pin => exact pinCommand_sound hargs h
  | unpin => exact pinCommand_sound hargs h
  | peer => exact cmdPeer_sound hargs h
  | config => exact cmdConfig_sound hargs h
  | friend => exact cmdFriend_sound hargs h
  | bootstrap => exact cmdBootstrap_sound hargs h
  | health =>
    obtain rfl := Parsed.asks.inj h
    trivial
  | status =>
    obtain rfl := Parsed.asks.inj h
    trivial
  | _ => cases h

end Sound

/-! ## A command line for each of them -/

theorem isArg_of_check {t : Text}
    (hchars : (t.all fun c => decide (0 < c.toNat ∧ c.toNat < 256)) = true)
    (hplain : GlobalOption.ofToken t = none) : IsArg t :=
  ⟨fun c hc => of_decide_eq_true (List.all_eq_true.mp hchars c hc), hplain⟩

/-- Both global options begin with a minus sign. -/
theorem ofToken_of_head {c : Char} {t : Text} (h : c ≠ '-') :
    GlobalOption.ofToken (c :: t) = none := by
  have hne : ∀ s : Text, s.head? = some '-' → c :: t ≠ s := by
    rintro s hs rfl
    exact h (Option.some.inj hs)
  rw [GlobalOption.ofToken, if_neg (hne _ rfl), if_neg (hne _ rfl)]

/-- And none of them has an `=`. -/
theorem ofToken_of_mem {t : Text} (h : '=' ∈ t) : GlobalOption.ofToken t = none := by
  have hne : ∀ s : Text, '=' ∉ s → t ≠ s := fun s hs heq => hs (heq ▸ h)
  rw [GlobalOption.ofToken, if_neg (hne _ (by decide)), if_neg (hne _ (by decide))]

theorem isArg_numeral {t : Text} (h : Numeral 10 t) : IsArg t := by
  have hdigit : ∀ c ∈ t, 0 < c.toNat ∧ c.toNat < 256 := by
    intro c hc
    have hc := h.digits c hc
    rw [isDigit, digit] at hc
    split at hc
    · rename_i hrange
      obtain ⟨hlow, hhigh⟩ := hrange
      have hzero : '0'.toNat = 48 := rfl
      have hlow : '0'.toNat ≤ c.toNat := hlow
      omega
    · cases hc
  refine ⟨hdigit, ?_⟩
  cases t with
  | nil => exact absurd rfl h.nonempty
  | cons c t => exact ofToken_of_head (ne_sign_of_isDigit (h.digits c List.mem_cons_self)).1

theorem isArg_hashText {hash : List UInt8} (h : hash.length = 32) :
    IsArg (Block.hashText hash) := by
  have hhash := Block.isHexHash_hashText h
  refine ⟨fun c hc => ?_, ?_⟩
  · have hdigit := hhash.digits c hc
    have hlow : c.toNat < 128 := Block.hexDigit_lt_128 hdigit
    refine ⟨Nat.pos_of_ne_zero fun hzero => ?_, by omega⟩
    have hnul : c = Char.ofNat 0 := by rw [← hzero, Char.ofNat_toNat]
    subst hnul
    exact absurd hdigit (by decide)
  · have hne : ∀ s : Text, s.length ≠ 64 → Block.hashText hash ≠ s :=
      fun s hs heq => hs (heq ▸ hhash.length)
    rw [GlobalOption.ofToken, if_neg (hne _ (by decide)), if_neg (hne _ (by decide))]

section Complete
variable {caller : Caller}

/-- A handler can be given arguments for the request. -/
def Asked (caller : Caller) (request : Request) : Prop :=
  ∃ (entry : Entry) (args : List Text),
    (∀ t ∈ args, IsArg t) ∧ entry.handler caller args = .asks request

/-- `--recycle-ephemeral` and its value. -/
def modeArgs : Put.RecycleEphemeral → List Text
  | .none => []
  | .commit => [lit "--recycle-ephemeral", lit "commit"]
  | .propagate => [lit "--recycle-ephemeral", lit "propagate"]

/-- The arguments of `offs put` after the path. -/
def putOptionArgs (o : Put.Options) : List Text :=
  (if o.temporary then [lit "--temporary"] else []) ++
    ((o.recycler.elim [] fun url => [lit "--recycler", url]) ++
      (modeArgs o.recycleEphemeral ++
        o.tupleSize.elim [] fun n => [lit "--tuple-size", decimal n]))

theorem putArgs_path {path : Text} (o : Put.Options) (rest : List Text)
    (h : (lit "--").isPrefixOf path = false) :
    Put.putArgs none o (path :: rest) = Put.putArgs (some path) o rest := by
  have hne : ∀ s : Text, (lit "--").isPrefixOf s = true → path ≠ s := by
    intro s hs heq
    rw [heq, hs] at h
    cases h
  rw [Put.putArgs.eq_def]
  simp only [if_neg (hne _ (by decide : (lit "--").isPrefixOf (lit "--help") = true)),
    if_neg (hne _ (by decide : (lit "--").isPrefixOf (lit "--temporary") = true)),
    if_neg (hne _ (by decide : (lit "--").isPrefixOf (lit "--recycler") = true)),
    if_neg (hne _ (by decide : (lit "--").isPrefixOf (lit "--recycle-ephemeral") = true)),
    if_neg (hne _ (by decide : (lit "--").isPrefixOf (lit "--tuple-size") = true)), h,
    Bool.false_eq_true, ↓reduceIte, Option.none_or]

section Options
variable (filePath : Option Text) (o : Put.Options) (rest : List Text)

theorem putArgs_temporary :
    Put.putArgs filePath o (lit "--temporary" :: rest) =
      Put.putArgs filePath { o with temporary := true } rest := by
  rw [Put.putArgs.eq_def]
  rfl

theorem putArgs_recycler (url : Text) :
    Put.putArgs filePath o (lit "--recycler" :: url :: rest) =
      Put.putArgs filePath { o with recycler := some url } rest := by
  rw [Put.putArgs.eq_def]
  rfl

theorem putArgs_recycleEphemeral {t : Text} {mode : Put.RecycleEphemeral}
    (h : Put.recycleMode t = some mode) :
    Put.putArgs filePath o (lit "--recycle-ephemeral" :: t :: rest) =
      Put.putArgs filePath { o with recycleEphemeral := mode } rest := by
  rw [Put.putArgs.eq_def]
  simp only [lit_inj, h]
  rfl

theorem putArgs_tupleSize {t : Text} {n : Nat} (h : Put.tupleSize t = some n) :
    Put.putArgs filePath o (lit "--tuple-size" :: t :: rest) =
      Put.putArgs filePath { o with tupleSize := some n } rest := by
  rw [Put.putArgs.eq_def]
  simp only [lit_inj, h]
  rfl

end Options

theorem tupleSize_decimal {n : Nat} (hpos : 0 < n) (hlt : n < 2 ^ 63) :
    Put.tupleSize (decimal n) = some n := by
  have hmin : min n (2 ^ 63 - 1) = n := by omega
  have hzero : ¬(false = true ∨ n = 0) := by
    rintro (h | h)
    · cases h
    · omega
  rw [Put.tupleSize, scan_numeral (numeral_decimal n), value_decimal]
  simp only [if_neg hzero, hmin]

theorem putArgs_complete {filePath : Text} {o : Put.Options} (hpath : PathSendable filePath)
    (h : OptionsSendable o) : Put.putArgs none .initial (filePath :: putOptionArgs o) = .accepted filePath o := by
  obtain ⟨temporary, recycler, tupleSize, mode⟩ := o
  rw [putArgs_path _ _ hpath.noFlag, putOptionArgs, Put.Options.initial]
  -- One group of arguments after the other sets its own field.
  have htemporary : ∀ rest, Put.putArgs (some filePath) ⟨false, none, none, .none⟩
      ((if temporary then [lit "--temporary"] else []) ++ rest) =
        Put.putArgs (some filePath) ⟨temporary, none, none, .none⟩ rest := by
    intro rest
    cases temporary
    · rfl
    · exact putArgs_temporary _ _ _
  have hrecycler : ∀ rest, Put.putArgs (some filePath) ⟨temporary, none, none, .none⟩
      ((recycler.elim [] fun url => [lit "--recycler", url]) ++ rest) =
        Put.putArgs (some filePath) ⟨temporary, recycler, none, .none⟩ rest := by
    intro rest
    cases recycler
    · rfl
    · exact putArgs_recycler _ _ _ _
  have hmode : ∀ rest, Put.putArgs (some filePath) ⟨temporary, recycler, none, .none⟩
      (modeArgs mode ++ rest) =
        Put.putArgs (some filePath) ⟨temporary, recycler, none, mode⟩ rest := by
    intro rest
    cases mode
    · rfl
    · exact putArgs_recycleEphemeral _ _ _ rfl
    · exact putArgs_recycleEphemeral _ _ _ rfl
  have htuple : Put.putArgs (some filePath) ⟨temporary, recycler, none, mode⟩
      (tupleSize.elim [] fun n => [lit "--tuple-size", decimal n]) =
        Put.putArgs (some filePath) ⟨temporary, recycler, tupleSize, mode⟩ [] := by
    cases tupleSize with
    | none => rfl
    | some n =>
      obtain ⟨hpos, hlt⟩ := h.tupleSize n rfl
      exact putArgs_tupleSize _ _ _ (tupleSize_decimal hpos hlt)
  have hcheck : ¬(mode ≠ .none ∧ recycler = none) := fun hmode => hmode.1 (h.recycled hmode.2)
  rw [htemporary, hrecycler, hmode, htuple, Put.putArgs.eq_2, if_neg hcheck]

theorem isArg_putOptionArgs {o : Put.Options} (h : ∀ url ∈ o.recycler, IsArg url) {t : Text}
    (ht : t ∈ putOptionArgs o) : IsArg t := by
  obtain ⟨temporary, recycler, tupleSize, mode⟩ := o
  simp only [putOptionArgs, List.mem_append] at ht
  rcases ht with ht | ht | ht | ht
  · cases temporary
    · cases ht
    · obtain rfl := List.mem_singleton.mp ht
      exact isArg_of_check (by decide) (by decide)
  · cases recycler with
    | none => cases ht
    | some url =>
      rcases List.mem_cons.mp ht with rfl | ht
      · exact isArg_of_check (by decide) (by decide)
      · obtain rfl := List.mem_singleton.mp ht
        exact h t rfl
  · cases mode with
    | none => cases ht
    | commit =>
      rcases List.mem_cons.mp ht with rfl | ht
      · exact isArg_of_check (by decide) (by decide)
      · obtain rfl := List.mem_singleton.mp ht
        exact isArg_of_check (by decide) (by decide)
    | propagate =>
      rcases List.mem_cons.mp ht with rfl | ht
      · exact isArg_of_check (by decide) (by decide)
      · obtain rfl := List.mem_singleton.mp ht
        exact isArg_of_check (by decide) (by decide)
  · cases tupleSize with
    | none => cases ht
    | some n =>
      rcases List.mem_cons.mp ht with rfl | ht
      · exact isArg_of_check (by decide) (by decide)
      · obtain rfl := List.mem_singleton.mp ht
        exact isArg_numeral (numeral_decimal n)

/-- Arguments one by one. -/
theorem isArg_nil : ∀ t ∈ ([] : List Text), IsArg t := by
  intro t ht
  cases ht

theorem isArg_cons {t : Text} {args : List Text} (ht : IsArg t) (hargs : ∀ t ∈ args, IsArg t) :
    ∀ u ∈ t :: args, IsArg u := by
  intro u hu
  rcases List.mem_cons.mp hu with rfl | hu
  · exact ht
  · exact hargs u hu

/-- A word of a handler's own. -/
theorem isArg_word {s : String} {args : List Text}
    (hchars : ((lit s).all fun c => decide (0 < c.toNat ∧ c.toNat < 256)) = true)
    (hplain : GlobalOption.ofToken (lit s) = none) (hargs : ∀ t ∈ args, IsArg t) :
    ∀ u ∈ lit s :: args, IsArg u :=
  isArg_cons (isArg_of_check hchars hplain) hargs

theorem asksHelp_singleton {t : Text} (h : t ≠ lit "--help") : asksHelp [t] = false := by
  simp [asksHelp, h]

theorem block_complete {block : BlockRequest} (h : BlockSendable caller block) :
    ∃ args, (∀ t ∈ args, IsArg t) ∧ blockRequest caller.allocates args = some block := by
  cases block with
  | put data base58 =>
    cases base58 with
    | false =>
      refine ⟨[lit "put", textOf data],
        isArg_word (by decide) (by decide) (isArg_cons h isArg_nil), ?_⟩
      simp only [blockRequest, ↓reduceIte, rawBytes_textOf]
      rfl
    | true =>
      refine ⟨[lit "put", textOf data, lit "--encoding", lit "base58"],
        isArg_word (by decide) (by decide) (isArg_cons h
          (isArg_word (by decide) (by decide) (isArg_word (by decide) (by decide) isArg_nil))), ?_⟩
      simp only [blockRequest, ↓reduceIte, rawBytes_textOf]
      rfl
  | get hash =>
    refine ⟨[lit "get", textOf hash],
      isArg_word (by decide) (by decide) (isArg_cons h isArg_nil), ?_⟩
    simp only [blockRequest, lit_inj, ↓reduceIte, rawBytes_textOf]
    rfl
  | delete hash force =>
    obtain ⟨text, htext, hhash⟩ : ∃ text, IsArg text ∧
        Block.deleteHash caller.allocates text = hash := by
      rcases h with ⟨hallocates, hlength⟩ | ⟨harg, hraw⟩
      · refine ⟨Block.hashText hash, isArg_hashText hlength, ?_⟩
        rw [Block.deleteHash, hallocates,
          Block.hexDecodeHash_of_hash (Block.isHexHash_hashText hlength),
          Block.decodePairs_hashText]
        rfl
      · refine ⟨textOf hash, harg, ?_⟩
        rw [Block.deleteHash, Block.hexDecodeHash_of_not hraw, Option.getD_none, rawBytes_textOf]
    cases force with
    | false =>
      refine ⟨[lit "delete", text],
        isArg_word (by decide) (by decide) (isArg_cons htext isArg_nil), ?_⟩
      simp only [blockRequest, lit_inj, hhash]
      rfl
    | true =>
      refine ⟨[lit "delete", text, lit "--force"], isArg_word (by decide) (by decide)
        (isArg_cons htext (isArg_word (by decide) (by decide) isArg_nil)), ?_⟩
      simp only [blockRequest, lit_inj, hhash]
      rfl

variable (caller) in
theorem configSet_complete {field value : Text} (hfield : CString field) (hvalue : CString value)
    (h : '=' ∉ field ∨ GlobalOption.ofToken value = none) :
    ∃ args, (∀ t ∈ args, IsArg t) ∧ cmdConfig caller args = .asks (.configSet field value) := by
  by_cases hmark : '=' ∈ field
  · have hplain := h.resolve_left (not_not.mpr hmark)
    refine ⟨[lit "add", field, value], isArg_word (by decide) (by decide)
      (isArg_cons ⟨hfield, ofToken_of_mem hmark⟩ (isArg_cons ⟨hvalue, hplain⟩ isArg_nil)), ?_⟩
    simp only [cmdConfig, lit_inj]
    rfl
  · have hcut : ∀ c ∈ field, (decide (c ≠ '=')) = true := by
      intro c hc
      exact decide_eq_true fun heq => hmark (heq ▸ hc)
    have htext : CString (field ++ '=' :: value) := by
      intro c hc
      rcases List.mem_append.mp hc with hc | hc
      · exact hfield c hc
      rcases List.mem_cons.mp hc with rfl | hc
      · decide
      · exact hvalue c hc
    have hmem : '=' ∈ field ++ '=' :: value := List.mem_append_right _ List.mem_cons_self
    refine ⟨[lit "set", field ++ '=' :: value], isArg_word (by decide) (by decide)
      (isArg_cons ⟨htext, ofToken_of_mem hmem⟩ isArg_nil), ?_⟩
    have hdrop : (field ++ '=' :: value).dropWhile (· ≠ '=') = '=' :: value := by
      rw [List.dropWhile_append_of_pos hcut]
      rfl
    have htake : (field ++ '=' :: value).takeWhile (· ≠ '=') = field := by
      rw [List.takeWhile_append_of_pos hcut]
      exact List.append_nil field
    have hset : configSetArg (field ++ '=' :: value) = .asks (.configSet field value) := by
      rw [configSetArg, hdrop, htake]
    simp only [cmdConfig, lit_inj]
    exact hset

theorem peerBytes_complete {textFormat format : Nat} (make : Nat → List UInt8 → Request)
    {data : List UInt8} (h : BytesSendable caller textFormat format data) :
    ∃ args, (∀ t ∈ args, IsArg t) ∧
      peerBytes caller textFormat make args = .asks (make format data) := by
  rcases h with ⟨rfl, path, hpath, hfile⟩ | ⟨rfl, htext, hqr⟩
  · refine ⟨[lit "--qr", path],
      isArg_word (by decide) (by decide) (isArg_cons hpath isArg_nil), ?_⟩
    simp only [peerBytes, ↓reduceIte, hfile]
  · refine ⟨[textOf data], isArg_cons htext isArg_nil, ?_⟩
    simp only [peerBytes, if_neg hqr, rawBytes_textOf]

/-- **A command line for each request that is sendable.** -/
theorem handler_complete {request : Request} (h : Sendable caller request) :
    Asked caller request := by
  cases request with
  | put request =>
    obtain ⟨⟨filePath, hpath, hsize, hname⟩, hpos, hfileName, hmime, hoptions⟩ := h
    have hannounced : Put.announcement caller.mimeTypeFromExtension filePath request.options
        request.streamLength = request := by
      rw [Put.announcement, hname, ← hmime]
    refine ⟨.put, filePath :: putOptionArgs request.options,
      isArg_cons hpath.path fun t ht => isArg_putOptionArgs hoptions.recycler ht, ?_⟩
    simp only [Entry.handler, cmdPut, putArgs_complete hpath hoptions, hsize, hannounced]
    rw [if_neg (Nat.pos_iff_ne_zero.mp hpos), hname, if_neg hfileName]
  | get ori outputPath =>
    cases outputPath with
    | none => exact ⟨.get, [ori], isArg_cons h.1 isArg_nil, rfl⟩
    | some path =>
      exact ⟨.get, [ori, lit "--output", path], isArg_cons h.1
        (isArg_word (by decide) (by decide) (isArg_cons (h.2 path rfl) isArg_nil)), rfl⟩
  | load ori =>
    refine ⟨.load, [ori], isArg_cons h.1 isArg_nil, ?_⟩
    simp only [Entry.handler, cmdLoad, asksHelp_singleton h.2, Bool.false_eq_true, ↓reduceIte]
  | block block =>
    obtain ⟨args, hargs, hblock⟩ := block_complete h
    refine ⟨.block, args, hargs, ?_⟩
    rw [Entry.handler, cmdBlock, hblock]
  | ephemeralList =>
    exact ⟨.ephemeral, [lit "list"], isArg_word (by decide) (by decide) isArg_nil, rfl⟩
  | rep op url =>
    obtain ⟨hurl, hhelp⟩ := h
    have hmark : ∀ s : String, lit s ≠ lit "--help" → asksHelp [lit s, url] = false := by
      intro s hs
      simp [asksHelp, hs, hhelp]
    cases op with
    | markPermanent =>
      refine ⟨.ephemeral, [lit "commit", url],
        isArg_word (by decide) (by decide) (isArg_cons hurl isArg_nil), ?_⟩
      simp only [Entry.handler, cmdEphemeral, hmark "commit" (by decide), Bool.false_eq_true,
        ↓reduceIte]
    | deleteEphemeral =>
      refine ⟨.ephemeral, [lit "delete", url],
        isArg_word (by decide) (by decide) (isArg_cons hurl isArg_nil), ?_⟩
      simp only [Entry.handler, cmdEphemeral, hmark "delete" (by decide), Bool.false_eq_true,
        ↓reduceIte, lit_inj]
      rfl
    | pin =>
      refine ⟨.pin, [url], isArg_cons hurl isArg_nil, ?_⟩
      simp only [Entry.handler, cmdPin, pinCommand, asksHelp_singleton hhelp, Bool.false_eq_true,
        ↓reduceIte]
    | unpin =>
      refine ⟨.unpin, [url], isArg_cons hurl isArg_nil, ?_⟩
      simp only [Entry.handler, cmdUnpin, pinCommand, asksHelp_singleton hhelp,
        Bool.false_eq_true, ↓reduceIte]
  | peerInfo qrPath =>
    cases qrPath with
    | none => exact ⟨.peer, [lit "info"], isArg_word (by decide) (by decide) isArg_nil, rfl⟩
    | some path =>
      exact ⟨.peer, [lit "info", lit "--qr", path], isArg_word (by decide) (by decide)
        (isArg_word (by decide) (by decide) (isArg_cons (h path rfl) isArg_nil)), rfl⟩
  | peerList => exact ⟨.peer, [lit "list"], isArg_word (by decide) (by decide) isArg_nil, rfl⟩
  | peerConnect format data =>
    obtain ⟨args, hargs, hbytes⟩ := peerBytes_complete .peerConnect h
    exact ⟨.peer, lit "connect" :: args, isArg_word (by decide) (by decide) hargs, hbytes⟩
  | friendAdd format data =>
    obtain ⟨args, hargs, hbytes⟩ := peerBytes_complete .friendAdd h
    exact ⟨.friend, lit "add" :: args, isArg_word (by decide) (by decide) hargs, hbytes⟩
  | friendRemove nodeId =>
    refine ⟨.friend, [lit "remove", textOf nodeId],
      isArg_word (by decide) (by decide) (isArg_cons h isArg_nil), ?_⟩
    have hbytes := congrArg (fun data => Parsed.asks (.friendRemove data)) (rawBytes_textOf nodeId)
    exact hbytes
  | friendList => exact ⟨.friend, [lit "list"], isArg_word (by decide) (by decide) isArg_nil, rfl⟩
  | bootstrapAdd endpoint =>
    exact ⟨.bootstrap, [lit "add", endpoint],
      isArg_word (by decide) (by decide) (isArg_cons h isArg_nil), rfl⟩
  | bootstrapRemove endpoint =>
    exact ⟨.bootstrap, [lit "remove", endpoint],
      isArg_word (by decide) (by decide) (isArg_cons h isArg_nil), rfl⟩
  | bootstrapList =>
    exact ⟨.bootstrap, [lit "list"], isArg_word (by decide) (by decide) isArg_nil, rfl⟩
  | configShow field =>
    cases field with
    | none => exact ⟨.config, [lit "show"], isArg_word (by decide) (by decide) isArg_nil, rfl⟩
    | some name =>
      exact ⟨.config, [lit "get", name],
        isArg_word (by decide) (by decide) (isArg_cons (h name rfl) isArg_nil), rfl⟩
  | configSet field value =>
    obtain ⟨hfield, hvalue, hmark⟩ := h
    obtain ⟨args, hargs, hconfig⟩ := configSet_complete caller hfield hvalue hmark
    exact ⟨.config, args, hargs, hconfig⟩
  | configReload =>
    exact ⟨.config, [lit "reload"], isArg_word (by decide) (by decide) isArg_nil, rfl⟩
  | health => exact ⟨.health, [], isArg_nil, rfl⟩
  | status => exact ⟨.status, [], isArg_nil, rfl⟩

end Complete

/-! ## Both ways -/

/-- **What the command line can say.**  A request can be sent by some command line exactly if it
is sendable.  `main` hands a handler the arguments less the global options, and there is a command
line for every such list of arguments, so that it comes to what the handlers ask for: nothing that
is not sendable (`handler_sound`), and all that is (`handler_complete`). -/
theorem sent_iff_sendable (caller : Caller) (request : Request) :
    (∃ argv g, (∀ t ∈ argv, CString t) ∧ offs caller true argv g = .sends true request) ↔
      Sendable caller request := by
  constructor
  · rintro ⟨argv, g, hstrings, hsends⟩
    rw [offs_eq] at hsends
    obtain ⟨entry, rest, hkept, hasks, -⟩ := offsArgs_sends hsends
    have htail : ∀ t ∈ argv.tail, CString t := fun t ht => hstrings t (List.mem_of_mem_tail ht)
    have hargs : ∀ t ∈ rest, IsArg t := by
      intro t ht
      apply isArg_of_mem_kept htail
      rw [hkept]
      exact List.mem_cons_of_mem _ ht
    exact handler_sound hargs hasks
  · intro h
    obtain ⟨entry, args, hargs, hasks⟩ := handler_complete h
    have hname : IsArg entry.name := by
      cases entry <;> exact isArg_of_check (by decide) (by decide)
    have hall := isArg_cons hname hargs
    obtain ⟨hkept, -⟩ := Main.kept_of_plain (fun t ht => (hall t ht).plain) ⟨[], []⟩
    refine ⟨lit "offs" :: entry.name :: args, ⟨[], []⟩, ?_, ?_⟩
    · intro t ht
      rcases List.mem_cons.mp ht with rfl | ht
      · exact (isArg_of_check (by decide) (by decide)).cString
      · exact (hall t ht).cString
    · rw [offs_eq, List.tail_cons, hkept, offsArgs, if_neg (name_ne_help entry),
        needsClient_of_asks hasks, dispatch_name, hasks]
      rfl

end Offs.Dispatch
