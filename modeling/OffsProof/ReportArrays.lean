import Mathlib.Data.List.Dedup
import OffsProof.MetricsTable

/-! # Who frees the arrays of a report

`topology_report_decode` allocates two arrays for each report, one of peer snapshots and one of
ring entries, and hands them over to `_handle_report`.  A row of the table keeps those of its
last report; they are freed when the next one comes in, and those that are left are freed when
the server stops.

An array is told from all others by the decode that allocated it (`Token`), so that to lose one,
or to free one twice, can be said of the tokens.  The pointers are carried by the metrics that a
row has (`Held`): the handler is the one of `MetricsTable`, at reports that come with the tokens
of their decode, and no second model of it is made.

The arrays that the rows hold and those that have been freed are, together, all that were handed
over (`Balanced`), as a multiset.  What a request does to them is said once (`Handles`): a
report that is filed keeps the balance, since the arrays it replaces are freed and its own take
their place; one that finds the table full keeps nothing and frees nothing.  From then on an
array is missing, and it stays missing.  So no array is lost just if the reports come from at
most 256 nodes (`report_arrays_freed_iff`), where the nodes of the table are the nodes that have
reported as long as nothing was refused (`Tracks`).
-/
namespace Offs.Metrics
open CText KeyedHistory

inductive Snapshots
  | peerSnapshots
  | ringEntries
  deriving DecidableEq, Repr

/-- An array, by the decode that allocated it. -/
structure Token where
  decode : Nat
  array : Snapshots
  deriving DecidableEq, Repr

/-- The arrays of a decode. -/
def handedBy (decode : Nat) : List Token :=
  [⟨decode, .peerSnapshots⟩, ⟨decode, .ringEntries⟩]

/-- The arrays of the first decodes. -/
def handedOver (decodes : Nat) : List Token := (List.range decodes).flatMap handedBy

/-- `topology_metrics_t`, with its two pointers. -/
structure Held (M : Type) where
  metrics : M
  peerSnapshots : Option Token
  ringEntries : Option Token

/-- What `memset` leaves. -/
instance {M : Type} [Inhabited M] : Inhabited (Held M) := ⟨⟨default, none, none⟩⟩

/-- The arrays that are freed with `free(latest.peer_snapshots)` and
`free(latest.ring_entries)`. -/
def Held.tokens {M : Type} (m : Held M) : List Token :=
  m.peerSnapshots.toList ++ m.ringEntries.toList

section Handler
variable {N M Item : Type}

/-- The report with the arrays that its decode hands over. -/
def Report.holding (decode : Nat) (r : Report N M) : Report N (Held M) :=
  ⟨r.reporterId, r.timestampMs,
    ⟨r.metrics, some ⟨decode, .peerSnapshots⟩, some ⟨decode, .ringEntries⟩⟩⟩

/-- The decoders, at a given decode. -/
def Codec.handing (codec : Codec N M Item) (decode : Nat) : Codec N (Held M) Item where
  cborLoad := codec.cborLoad
  topologyReportDecode item := (codec.topologyReportDecode item).map (Report.holding decode)

/-- The arrays that the rows hold. -/
def owned (nodes : List (NodeReport N (Held M))) : List Token :=
  nodes.flatMap fun row => row.latest.tokens

/-- The table, the number of decodes that have succeeded, and the arrays that were freed. -/
@[ext]
structure Memory (N M : Type) where
  nodes : List (NodeReport N (Held M))
  decodes : Nat
  freed : List Token

variable [DecidableEq N] [Inhabited M] (codec : Codec N M Item)

/-- What `_handle_report` frees: the arrays of the report before, or nothing. -/
def freedBy (codec : Codec N (Held M) Item) (nodes : List (NodeReport N (Held M)))
    (request : Request) : List Token :=
  match decoded codec request with
  | none => []
  | some report =>
    match findOrCreateNode nodes report.reporterId with
    -- The table is full, and the arrays of the report are not freed.
    | none => []
    | some (nodes, index) => (nodes[index]?.map fun row => row.latest.tokens).getD []

/-- A request, with what it does to the arrays. -/
def handle (s : Memory N M) (request : Request) : Memory N M where
  nodes := (handleReport (codec.handing s.decodes) s.nodes request).1
  decodes := s.decodes + (decoded codec request).toList.length
  freed := s.freed ++ freedBy (codec.handing s.decodes) s.nodes request

/-- The requests of a run. -/
def handleAll (requests : List Request) : Memory N M := requests.foldl (handle codec) ⟨[], 0, []⟩

/-- The arrays that have been freed when `main` returns, after its loop over the table. -/
def Memory.freedAtExit (s : Memory N M) : List Token := s.freed ++ owned s.nodes

/-- **Every array that was handed over** is held by one row or has been freed once, and has been
freed once when `main` returns. -/
def Accounted (s : Memory N M) : Prop :=
  ∀ t ∈ handedOver s.decodes, (owned s.nodes).count t + s.freed.count t = 1 ∧
    s.freedAtExit.count t = 1

/-- The nodes that the reports of a run come from. -/
def reporters (requests : List Request) : List N :=
  (requests.filterMap (decoded codec)).map Report.reporterId

end Handler

/-! ## The arrays handed over -/

theorem mem_handedOver {decodes : Nat} {t : Token} :
    t ∈ handedOver decodes ↔ t.decode < decodes := by
  obtain ⟨decode, array⟩ := t
  rw [handedOver, List.mem_flatMap]
  constructor
  · rintro ⟨k, hk, ht⟩
    have hdecode : decode = k := by
      simp only [handedBy, List.mem_cons, List.not_mem_nil, or_false, Token.mk.injEq] at ht
      omega
    exact hdecode ▸ List.mem_range.mp hk
  · intro h
    exact ⟨decode, List.mem_range.mpr h, by cases array <;> simp [handedBy]⟩

theorem handedOver_succ (decodes : Nat) :
    handedOver (decodes + 1) = handedOver decodes ++ handedBy decodes := by
  simp [handedOver, List.range_succ]

theorem nodup_handedOver (decodes : Nat) : (handedOver decodes).Nodup := by
  induction decodes with
  | zero => exact List.nodup_nil
  | succ decodes ih =>
    rw [handedOver_succ]
    refine ih.append (by simp [handedBy]) fun t hold hnew => ?_
    have hbefore : t.decode < decodes := mem_handedOver.mp hold
    have hdecode : t.decode = decodes := by
      simp only [handedBy, List.mem_cons, List.not_mem_nil, or_false] at hnew
      rcases hnew with rfl | rfl <;> rfl
    omega

/-- What the list has more and less after an update at an index. -/
theorem perm_flatMap_modify {α β : Type} (g : α → List β) (f : α → α) {l : List α} {i : Nat}
    (hi : i < l.length) :
    ((l.modify i f).flatMap g ++ g l[i]).Perm (l.flatMap g ++ g (f l[i])) := by
  induction l generalizing i with
  | nil => simp at hi
  | cons a l ih =>
    rcases i with _ | i
    · simp only [List.modify_zero_cons, List.flatMap_cons, List.getElem_cons_zero]
      have hfirst : (g (f a) ++ l.flatMap g ++ g a).Perm (g a ++ (g (f a) ++ l.flatMap g)) :=
        List.perm_append_comm
      have hlast : (g a ++ (g (f a) ++ l.flatMap g)).Perm (g a ++ (l.flatMap g ++ g (f a))) :=
        List.perm_append_comm.append_left (g a)
      rw [List.append_assoc (g a)]
      exact hfirst.trans hlast
    · have hi' : i < l.length := by simpa using hi
      simp only [List.modify_succ_cons, List.flatMap_cons, List.getElem_cons_succ,
        List.append_assoc]
      exact (ih hi').append_left _

/-! ## One request -/

section Requests
variable {N M Item : Type} [DecidableEq N] [Inhabited M] {codec : Codec N M Item}
  {s : Memory N M} {request : Request}

omit [DecidableEq N] [Inhabited M] in
theorem decoded_handing (codec : Codec N M Item) (decode : Nat) (request : Request) :
    decoded (codec.handing decode) request =
      (decoded codec request).map (Report.holding decode) := by
  rw [decoded, decoded]
  split
  · show (codec.cborLoad request.body).bind
      (fun item => (codec.topologyReportDecode item).map _) = _
    rw [Option.map_bind]
    rfl
  · rfl

section Find
variable {nodes : List (NodeReport N M)} {id : N}

theorem findOrCreateNode_known (hdistinct : (ids nodes).Nodup) {index : Nat}
    (hindex : index < nodes.length) (hid : nodes[index].nodeId = id) :
    findOrCreateNode nodes id = some (nodes, index) := by
  have hfind : nodes.findIdx? (fun row => row.nodeId = id) = some index := by
    refine List.findIdx?_eq_some_iff_getElem.mpr ⟨hindex, by simpa using hid, fun j hj hsame => ?_⟩
    have hlength : (ids nodes).length = nodes.length := List.length_map _
    have hids : (ids nodes)[j] = (ids nodes)[index] := by
      simp [ids, hid, of_decide_eq_true hsame]
    exact absurd ((List.Nodup.getElem_inj_iff hdistinct).mp hids) (by omega)
  rw [findOrCreateNode, hfind]

theorem findOrCreateNode_fresh (hnew : id ∉ ids nodes) :
    findOrCreateNode nodes id =
      if nodes.length ≥ maxNodes then none else some (nodes ++ [.blank id], nodes.length) := by
  have hfind : nodes.findIdx? (fun row => row.nodeId = id) = none := by
    refine List.findIdx?_eq_none_iff.mpr fun row hrow => ?_
    have hne : row.nodeId ≠ id := fun h => hnew (h ▸ List.mem_map_of_mem hrow)
    simpa using hne
  rw [findOrCreateNode, hfind]

end Find

/-- The arrays that the rows hold and those that have been freed are all there are, each of them
once.  As tokens of different decodes are different, a balanced server has lost no array, and
has freed none twice or while a row still holds it. -/
def Balanced (s : Memory N M) : Prop :=
  (owned s.nodes ++ s.freed).Perm (handedOver s.decodes)

/-- **What a request does to the arrays.**  There are four cases, one for each way through the
handler.  Without a report nothing was allocated, and nothing changes.  A report that finds no
row, and no room for one, has been decoded, so that two more arrays were handed over, which
nobody holds or frees.  A report that is filed, under a known node or a new one, keeps the
arrays balanced, and the ids of the table say which of the two it was.  The runs below are
derived from these cases; the handler is looked into only where they are established. -/
inductive Handles (codec : Codec N M Item) (s : Memory N M) (request : Request) : Prop
  | undecoded (hdecoded : decoded codec request = none) (hsame : handle codec s request = s)
  /-- The arrays are lost. -/
  | full (report : Report N M) (hdecoded : decoded codec request = some report)
      (hnew : report.reporterId ∉ ids s.nodes) (hfull : maxNodes ≤ s.nodes.length)
      (hsame : handle codec s request = { s with decodes := s.decodes + 1 })
  | known (report : Report N M) (hdecoded : decoded codec request = some report)
      (hknown : report.reporterId ∈ ids s.nodes)
      (hids : ids (handle codec s request).nodes = ids s.nodes)
      (hbalanced : Balanced s → Balanced (handle codec s request))
  | new (report : Report N M) (hdecoded : decoded codec request = some report)
      (hnew : report.reporterId ∉ ids s.nodes) (hroom : s.nodes.length < maxNodes)
      (hids : ids (handle codec s request).nodes = ids s.nodes ++ [report.reporterId])
      (hbalanced : Balanced s → Balanced (handle codec s request))

/-- A report that is filed adds its arrays to those of the rows, and the ones it replaces to
those that were freed. -/
theorem balanced_of_filed {nodes : List (NodeReport N (Held M))} {old : List Token}
    (hs : Balanced s) (hnodes : (handle codec s request).nodes = nodes)
    (hdecodes : (handle codec s request).decodes = s.decodes + 1)
    (hfreed : (handle codec s request).freed = s.freed ++ old)
    (howned : (owned nodes ++ old).Perm (owned s.nodes ++ handedBy s.decodes)) :
    Balanced (handle codec s request) := by
  rw [Balanced, hnodes, hdecodes, hfreed, handedOver_succ]
  have hold : (owned nodes ++ (s.freed ++ old)).Perm (owned nodes ++ old ++ s.freed) := by
    rw [List.append_assoc]
    exact List.perm_append_comm.append_left _
  have hnew : (owned s.nodes ++ handedBy s.decodes ++ s.freed).Perm
      (owned s.nodes ++ s.freed ++ handedBy s.decodes) := by
    rw [List.append_assoc, List.append_assoc]
    exact List.perm_append_comm.append_left _
  exact hold.trans ((howned.append_right _).trans (hnew.trans (hs.append_right _)))

theorem handle_handles (codec : Codec N M Item) {s : Memory N M}
    (hdistinct : (ids s.nodes).Nodup) (request : Request) : Handles codec s request := by
  have hhandled := handleReport_handled (codec.handing s.decodes) s.nodes request
  have hdecodes : (handle codec s request).decodes =
      s.decodes + (decoded codec request).toList.length := rfl
  have hfreed : (handle codec s request).freed =
      s.freed ++ freedBy (codec.handing s.decodes) s.nodes request := rfl
  generalize hnodes : (handleReport (codec.handing s.decodes) s.nodes request).1 = nodes at hhandled
  generalize accepts (codec.handing s.decodes) s.nodes request = ok at hhandled
  have hnodes : (handle codec s request).nodes = nodes := hnodes
  rw [freedBy] at hfreed
  cases hhandled with
  | undecoded hdecoded =>
    rw [hdecoded, List.append_nil] at hfreed
    rw [decoded_handing, Option.map_eq_none_iff] at hdecoded
    rw [hdecoded] at hdecodes
    exact .undecoded hdecoded (Memory.ext hnodes hdecodes hfreed)
  | full hdecoded hnew hfull =>
    rw [hdecoded] at hfreed
    dsimp only at hfreed
    rw [findOrCreateNode_fresh hnew, if_pos hfull, List.append_nil] at hfreed
    rw [decoded_handing] at hdecoded
    obtain ⟨report, hreport, rfl⟩ := Option.map_eq_some_iff.mp hdecoded
    rw [hreport] at hdecodes
    exact .full report hreport hnew hfull (Memory.ext hnodes hdecodes hfreed)
  | known hdecoded hindex hid =>
    rw [hdecoded] at hfreed
    dsimp only at hfreed
    rw [findOrCreateNode_known hdistinct hindex hid] at hfreed
    dsimp only at hfreed
    rw [List.getElem?_eq_getElem hindex, Option.map_some, Option.getD_some] at hfreed
    rw [decoded_handing] at hdecoded
    obtain ⟨report, hreport, rfl⟩ := Option.map_eq_some_iff.mp hdecoded
    rw [hreport] at hdecodes
    refine .known report hreport (hid ▸ List.mem_map_of_mem (List.getElem_mem hindex)) ?_ fun hs =>
      balanced_of_filed hs hnodes hdecodes hfreed ?_
    · rw [hnodes, modify_eq_updateKey hdistinct hindex]
      exact map_key_updateKey (fun row => (rfl : (row.file _).nodeId = row.nodeId)) s.nodes
    · exact perm_flatMap_modify (fun row : NodeReport N (Held M) => row.latest.tokens) _ hindex
  | new hdecoded hnew hroom =>
    rw [hdecoded] at hfreed
    dsimp only at hfreed
    rw [findOrCreateNode_fresh hnew, if_neg (Nat.not_le_of_lt hroom)] at hfreed
    dsimp only at hfreed
    rw [List.getElem?_concat_length, Option.map_some, Option.getD_some] at hfreed
    rw [decoded_handing] at hdecoded
    obtain ⟨report, hreport, rfl⟩ := Option.map_eq_some_iff.mp hdecoded
    rw [hreport] at hdecodes
    refine .new report hreport hnew hroom ?_
      fun hs => balanced_of_filed hs hnodes hdecodes hfreed ?_
    · rw [hnodes]
      simp [ids, NodeReport.file, NodeReport.blank, Report.holding]
    · rw [owned, List.flatMap_append]
      exact List.Perm.of_eq (List.append_nil _)

/-! ## Whole runs -/

omit [DecidableEq N] [Inhabited M] in
theorem Balanced.accounted (h : Balanced s) : Accounted s := by
  intro t ht
  have hcount : (owned s.nodes ++ s.freed).count t = 1 := by
    rw [h.count_eq]
    exact List.count_eq_one_of_mem (nodup_handedOver _) ht
  rw [List.count_append] at hcount
  refine ⟨hcount, ?_⟩
  rw [Memory.freedAtExit, List.count_append, Nat.add_comm]
  exact hcount

omit [DecidableEq N] [Inhabited M] in
/-- A decode that nobody takes over is lost. -/
theorem Balanced.not_accounted (h : Balanced s) :
    ¬Accounted { s with decodes := s.decodes + 1 } := by
  intro haccounted
  have hlost : (⟨s.decodes, .peerSnapshots⟩ : Token) ∉ owned s.nodes ++ s.freed := by
    rw [h.mem_iff, mem_handedOver]
    exact Nat.lt_irrefl _
  have hcount := (haccounted ⟨s.decodes, .peerSnapshots⟩
    (mem_handedOver.mpr (Nat.lt_succ_self _))).1
  rw [← List.count_append, List.count_eq_zero_of_not_mem hlost] at hcount
  cases hcount

/-- The table has a row for each node that has reported, and no other rows.  It is what counts the
reporters of a run: as long as it holds, there are as many as rows. -/
structure Tracks (codec : Codec N M Item) (requests : List Request) (s : Memory N M) : Prop where
  bounded : s.nodes.length ≤ maxNodes
  distinct : (ids s.nodes).Nodup
  present : ∀ n, n ∈ ids s.nodes ↔ n ∈ reporters codec requests

omit [Inhabited M] in
theorem Tracks.length_dedup {requests : List Request} (h : Tracks codec requests s) :
    (reporters codec requests).dedup.length = s.nodes.length := by
  have hperm : (reporters codec requests).dedup.Perm (ids s.nodes) := by
    refine (List.perm_ext_iff_of_nodup (List.nodup_dedup _) h.distinct).mpr fun n => ?_
    rw [List.mem_dedup, h.present]
  rw [hperm.length_eq, ids, List.length_map]

omit [DecidableEq N] [Inhabited M] in
theorem mem_reporters_append (codec : Codec N M Item) {requests : List Request} {n : N} :
    n ∈ reporters codec (requests ++ [request]) ↔
      n ∈ reporters codec requests ∨ (decoded codec request).map Report.reporterId = some n := by
  rw [reporters, List.filterMap_append, List.map_append, List.mem_append]
  cases hdecoded : decoded codec request <;> simp [reporters, hdecoded, eq_comm]

omit [Inhabited M] in
theorem dedup_length_mono (codec : Codec N M Item) {before requests : List Request}
    (h : before <+: requests) :
    (reporters codec before).dedup.length ≤ (reporters codec requests).dedup.length := by
  refine List.Nodup.length_le_of_subset (List.nodup_dedup _) fun n hn => ?_
  rw [List.mem_dedup] at hn ⊢
  obtain ⟨r, hr, rfl⟩ := List.mem_map.mp hn
  exact List.mem_map_of_mem ((h.filterMap _).subset hr)

section Tracks
variable {requests : List Request} {t : Memory N M}

omit [DecidableEq N] [Inhabited M] in
/-- No report has come in, or one of a node that has a row. -/
theorem Tracks.same (h : Tracks codec requests s) (hids : ids t.nodes = ids s.nodes)
    (hknown : ∀ report, decoded codec request = some report → report.reporterId ∈ ids s.nodes) :
    Tracks codec (requests ++ [request]) t := by
  have hlength : t.nodes.length = s.nodes.length := by simpa [ids] using congrArg List.length hids
  refine ⟨hlength ▸ h.bounded, hids ▸ h.distinct, fun n => ?_⟩
  rw [hids, mem_reporters_append, h.present, iff_self_or]
  intro hn
  obtain ⟨report, hdecoded, rfl⟩ := Option.map_eq_some_iff.mp hn
  exact (h.present _).mp (hknown report hdecoded)

omit [DecidableEq N] [Inhabited M] in
/-- A node has got a row. -/
theorem Tracks.grown (h : Tracks codec requests s) {report : Report N M}
    (hdecoded : decoded codec request = some report) (hnew : report.reporterId ∉ ids s.nodes)
    (hroom : s.nodes.length < maxNodes) (hids : ids t.nodes = ids s.nodes ++ [report.reporterId]) :
    Tracks codec (requests ++ [request]) t := by
  have hlength : t.nodes.length = s.nodes.length + 1 := by
    simpa [ids] using congrArg List.length hids
  refine ⟨by omega, ?_, fun n => ?_⟩
  · rw [hids]
    exact h.distinct.append (by simp) (by simpa using hnew)
  · rw [hids, mem_reporters_append, hdecoded, List.mem_append, h.present, List.mem_singleton,
      Option.map_some, Option.some.injEq, eq_comm]

omit [Inhabited M] in
/-- A node that finds no room is one more than there are rows. -/
theorem Tracks.crowded (h : Tracks codec requests s) {report : Report N M}
    (hdecoded : decoded codec request = some report) (hnew : report.reporterId ∉ ids s.nodes)
    (hfull : maxNodes ≤ s.nodes.length) :
    maxNodes < (reporters codec (requests ++ [request])).dedup.length := by
  have hnodup : (report.reporterId :: ids s.nodes).Nodup := List.nodup_cons.mpr ⟨hnew, h.distinct⟩
  have hsubset : report.reporterId :: ids s.nodes ⊆
      (reporters codec (requests ++ [request])).dedup := by
    intro n hn
    rw [List.mem_dedup, mem_reporters_append, hdecoded, ← h.present]
    rcases List.mem_cons.mp hn with rfl | hn
    · exact .inr rfl
    · exact .inl hn
  have hle := List.Nodup.length_le_of_subset hnodup hsubset
  rw [List.length_cons, ids, List.length_map] at hle
  omega

end Tracks

/-- **How a run goes**: the arrays are balanced and the table has room for every node that has
reported, or there were more nodes than rows and an array has been lost. -/
theorem run_balanced_or_lost (codec : Codec N M Item) (requests : List Request) :
    (Balanced (handleAll codec requests) ∧ Tracks codec requests (handleAll codec requests)) ∨
    (maxNodes < (reporters codec requests).dedup.length ∧
      ∃ before, before <+: requests ∧ ¬Accounted (handleAll codec before)) := by
  induction requests using List.reverseRecOn with
  | nil => exact .inl ⟨.nil, ⟨Nat.zero_le _, List.nodup_nil, fun _ => Iff.rfl⟩⟩
  | append_singleton requests request ih =>
    have hstep : handleAll codec (requests ++ [request]) =
        handle codec (handleAll codec requests) request := by
      simp [handleAll, List.foldl_append]
    rcases ih with ⟨hbalanced, htracks⟩ | ⟨hmany, before, hbefore, hlost⟩
    · cases handle_handles codec htracks.distinct request with
      | undecoded hdecoded hsame =>
        rw [hstep, hsame]
        exact .inl ⟨hbalanced, htracks.same rfl (by simp [hdecoded])⟩
      | full report hdecoded hnew hfull hsame =>
        refine .inr ⟨htracks.crowded hdecoded hnew hfull, requests ++ [request],
          List.prefix_rfl, ?_⟩
        rw [hstep, hsame]
        exact hbalanced.not_accounted
      | known report hdecoded hknown hids hkept =>
        rw [hstep]
        refine .inl ⟨hkept hbalanced, htracks.same hids ?_⟩
        intro report' hdecoded'
        obtain rfl := Option.some.inj (hdecoded.symm.trans hdecoded')
        exact hknown
      | new report hdecoded hnew hroom hids hkept =>
        rw [hstep]
        exact .inl ⟨hkept hbalanced, htracks.grown hdecoded hnew hroom hids⟩
    · have hlonger : requests <+: requests ++ [request] := List.prefix_append _ _
      exact .inr ⟨Nat.lt_of_lt_of_le hmany (dedup_length_mono codec hlonger), before,
        hbefore.trans hlonger, hlost⟩

/-- **No array is lost just if at most 256 nodes report**: in every run, after every request, each
array that was handed over is held by one row or has been freed once, and has been freed once when
the server stops.  As long as the table has room a run stays balanced, and when it has none for
the first report of a node, that report's arrays are lost (`run_balanced_or_lost`); the number of
nodes that have reported only grows. -/
theorem report_arrays_freed_iff (codec : Codec N M Item) (requests : List Request) :
    (∀ before, before <+: requests → Accounted (handleAll codec before)) ↔
      (reporters codec requests).dedup.length ≤ maxNodes := by
  constructor
  · intro haccounted
    rcases run_balanced_or_lost codec requests with ⟨-, htracks⟩ | ⟨-, before, hbefore, hlost⟩
    · rw [htracks.length_dedup]
      exact htracks.bounded
    · exact absurd (haccounted before hbefore) hlost
  · intro hfew before hbefore
    rcases run_balanced_or_lost codec before with ⟨hbalanced, -⟩ | ⟨hmany, -⟩
    · exact hbalanced.accounted
    · have hmono := dedup_length_mono codec hbefore
      omega

end Requests

/-- A decoder that takes the length of the body for the node. -/
def lengthCodec : Codec Nat Unit (List UInt8) := ⟨some, fun item => some ⟨item.length, 0, ()⟩⟩

/-- One report each of so many nodes. -/
def oneReportEach (count : Nat) : List Request :=
  (List.range count).map fun i => ⟨.post, lit "/report", List.replicate (i + 1) 0⟩

/-- **The 257th node loses its arrays.** -/
theorem full_table_loses_arrays :
    ∃ before, before <+: oneReportEach 257 ∧ ¬Accounted (handleAll lengthCodec before) := by
  have hdecoded : ∀ i : Nat,
      decoded lengthCodec ⟨.post, lit "/report", List.replicate (i + 1) 0⟩ =
        some ⟨i + 1, 0, ()⟩ := by
    intro i
    rw [decoded, if_pos ⟨rfl, rfl, by simp [List.replicate_succ]⟩]
    simp [lengthCodec]
  have hreporters : reporters lengthCodec (oneReportEach 257) = (List.range 257).map (· + 1) := by
    rw [reporters, oneReportEach, List.filterMap_map, Function.comp_def]
    simp only [hdecoded]
    rw [List.filterMap_eq_map', List.map_map]
    rfl
  have hdistinct : (reporters lengthCodec (oneReportEach 257)).Nodup := by
    rw [hreporters]
    exact (List.nodup_range).map (fun _ _ h => Nat.succ.inj h)
  rcases run_balanced_or_lost lengthCodec (oneReportEach 257) with ⟨-, htracks⟩ | ⟨-, hlost⟩
  · have hrows := htracks.length_dedup
    rw [hdistinct.dedup, hreporters, List.length_map, List.length_range] at hrows
    exact absurd htracks.bounded (by rw [← hrows]; decide)
  · exact hlost

end Offs.Metrics
