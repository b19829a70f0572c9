import Mathlib.Algebra.Ring.Int.Defs
import Mathlib.Data.List.Induction
import OffsProof.CText
import OffsProof.KeyedHistory

/-! # The node table of offs-metrics

`_handle_report` decodes a topology report and files it under the node that sent it.  `g_nodes`
up to `g_node_count` is a list of rows, in the order in which the nodes made first contact.  The
decoders of libcbor and liboffs are a parameter (`Codec`), and so is what a report says.  Node
ids are what `node_id_equals` tells apart.

What a request does to the table is said once (`Handled`): it is refused and the table stays as
it is, or its report is filed in the row of a known node, or in a new row.  The invariants below
are derived from these cases and do not look into the handler again.

The table is a function of the reports that were accepted, up to the order of its rows
(`Follows`): a row has the last report of its node, and counts all of them.  One request keeps
the table true to the reports accepted so far (`follows_serve`), and so does every run
(`follows_serveAll`).  The counter of a row is an `int`, so it is the number of the reports as
long as this has 31 bits, and wraps around from then on (`Summarises.reportCount`).
-/
namespace Offs.Metrics
open CText KeyedHistory

/-- `MAX_NODES` -/
def maxNodes : Nat := 256

/-- What `topology_report_decode` gives. -/
structure Report (N M : Type) where
  reporterId : N
  timestampMs : UInt64
  metrics : M

/-- `node_report_t` -/
structure NodeReport (N M : Type) where
  nodeId : N
  lastSeenMs : UInt64
  latest : M
  /-- An `int`. -/
  reportCount : Int

/-- libcbor and liboffs. -/
structure Codec (N M Item : Type) where
  cborLoad : List UInt8 → Option Item
  topologyReportDecode : Item → Option (Report N M)

inductive Method
  | get
  | post
  | other
  deriving DecidableEq, Repr

structure Request where
  method : Method
  path : Text
  /-- Empty also for a body that is NULL. -/
  body : List UInt8

inductive HttpStatus
  | ok
  | badRequest
  | internalServerError
  deriving DecidableEq, Repr

structure Response where
  status : HttpStatus
  text : Text
  deriving DecidableEq, Repr

section Handler
variable {N M Item : Type} [DecidableEq N] [Inhabited M]

/-- A row that `memset` has cleared. -/
def NodeReport.blank (id : N) : NodeReport N M := ⟨id, 0, default, 0⟩

/-- `_find_or_create_node`: the table and the index of the row. -/
def findOrCreateNode (nodes : List (NodeReport N M)) (id : N) :
    Option (List (NodeReport N M) × Nat) :=
  match nodes.findIdx? (fun row => row.nodeId = id) with
  | some index => some (nodes, index)
  | none => if nodes.length ≥ maxNodes then none else some (nodes ++ [.blank id], nodes.length)

/-- What a report does to its row. -/
def NodeReport.file (report : Report N M) (row : NodeReport N M) : NodeReport N M :=
  { row with
    latest := report.metrics
    lastSeenMs := report.timestampMs
    reportCount := (row.reportCount + 1).bmod (2 ^ 32) }

variable (codec : Codec N M Item)

/-- `_handle_report`, without a response for a request that is left to other handlers. -/
def handleReport (nodes : List (NodeReport N M)) (request : Request) :
    List (NodeReport N M) × Option Response :=
  if request.method ≠ .post ∨ request.path ≠ lit "/report" then (nodes, none)
  else if request.body = [] then (nodes, some ⟨.badRequest, lit "empty body"⟩)
  else
    match codec.cborLoad request.body with
    | none => (nodes, some ⟨.badRequest, lit "invalid CBOR"⟩)
    | some item =>
      match codec.topologyReportDecode item with
      -- The length that is written is one short.
      | none => (nodes, some ⟨.badRequest, (lit "invalid report format").take 20⟩)
      | some report =>
        match findOrCreateNode nodes report.reporterId with
        | none => (nodes, some ⟨.internalServerError, lit "node table full"⟩)
        | some (nodes, index) =>
          (nodes.modify index (NodeReport.file report),
            some ⟨.ok, lit "\x7b\"status\":\"ok\"\x7d"⟩)

/-! ## Runs -/

/-- The report in a request. -/
def decoded (request : Request) : Option (Report N M) :=
  if request.method = .post ∧ request.path = lit "/report" ∧ request.body ≠ [] then
    (codec.cborLoad request.body).bind codec.topologyReportDecode
  else none

/-- The request is answered with 200. -/
def accepts (nodes : List (NodeReport N M)) (request : Request) : Bool :=
  (handleReport codec nodes request).2.any fun response => response.status = .ok

/-- The server after a request: its table, and the reports accepted so far. -/
def serve (state : List (NodeReport N M) × List (Report N M)) (request : Request) :
    List (NodeReport N M) × List (Report N M) :=
  ((handleReport codec state.1 request).1,
    state.2 ++ if accepts codec state.1 request then (decoded codec request).toList else [])

/-- The requests of a run, one at a time. -/
def serveAll (requests : List Request) : List (NodeReport N M) × List (Report N M) :=
  requests.foldl (serve codec) ([], [])

end Handler

/-! ## What the table says about the reports -/

section Table
variable {N M Item : Type} [DecidableEq N]

/-- The nodes that are tracked. -/
def ids (nodes : List (NodeReport N M)) : List N := nodes.map NodeReport.nodeId

/-- A row is what its node has reported: the metrics and the time are those of the last report,
and the counter, which is an `int`, has been raised by each. -/
structure Summarises (history : List (Report N M)) (row : NodeReport N M) : Prop where
  latest : ∃ r, last Report.reporterId history row.nodeId = some r ∧ row.latest = r.metrics ∧
    row.lastSeenMs = r.timestampMs
  count : row.reportCount =
    ((ofKey Report.reporterId history row.nodeId).length : Int).bmod (2 ^ 32)

/-- **The table follows the accepted reports.**  This is the invariant of the server.  The bound
and the distinct ids are what the search for a row needs, `present` says that no node has been
forgotten or made up, and `rows` that the reports of one node are never filed under another. -/
structure Follows (nodes : List (NodeReport N M)) (history : List (Report N M)) : Prop where
  bounded : nodes.length ≤ maxNodes
  distinct : (ids nodes).Nodup
  present : ∀ n, n ∈ ids nodes ↔ ∃ r ∈ history, r.reporterId = n
  rows : ∀ row ∈ nodes, Summarises history row

theorem Summarises.reportCount {history : List (Report N M)} {row : NodeReport N M}
    (h : Summarises history row)
    (hbelow : (ofKey Report.reporterId history row.nodeId).length < 2 ^ 31) :
    row.reportCount = (ofKey Report.reporterId history row.nodeId).length := by
  rw [h.count]
  exact Int.bmod_eq_of_le (by omega) (by omega)

/-- A row does not notice the reports of others. -/
theorem Summarises.append_of_ne {history : List (Report N M)} {row : NodeReport N M}
    (h : Summarises history row) {report : Report N M} (hne : report.reporterId ≠ row.nodeId) :
    Summarises (history ++ [report]) row := by
  constructor
  · rw [last_append_of_ne history hne]
    exact h.latest
  · rw [ofKey_append_of_ne history hne]
    exact h.count

/-- A report is filed in the row of its node. -/
theorem summarises_file {history : List (Report N M)} {row : NodeReport N M} {report : Report N M}
    (hid : row.nodeId = report.reporterId)
    (hcount : row.reportCount =
      ((ofKey Report.reporterId history row.nodeId).length : Int).bmod (2 ^ 32)) :
    Summarises (history ++ [report]) (row.file report) := by
  have hnode : (row.file report).nodeId = report.reporterId := hid
  constructor
  · refine ⟨report, ?_, rfl, rfl⟩
    rw [hnode, last_append_self]
  · rw [hnode, ofKey_append_self, List.length_append, ← hid]
    have hfile : (row.file report).reportCount = (row.reportCount + 1).bmod (2 ^ 32) := rfl
    rw [hfile, hcount, Int.bmod_add_bmod]
    push_cast
    rfl

theorem follows_nil : Follows ([] : List (NodeReport N M)) [] where
  bounded := by simp
  distinct := by simp [ids]
  present := by simp [ids]
  rows := by simp

/-- A report of a known node. -/
theorem Follows.update {nodes : List (NodeReport N M)} {history : List (Report N M)}
    (h : Follows nodes history) {report : Report N M} (hknown : report.reporterId ∈ ids nodes) :
    Follows (updateKey NodeReport.nodeId report.reporterId (NodeReport.file report) nodes)
      (history ++ [report]) := by
  have hids : ids (updateKey NodeReport.nodeId report.reporterId (NodeReport.file report) nodes) =
      ids nodes := by
    unfold ids
    exact map_key_updateKey (fun row => (rfl : (row.file report).nodeId = row.nodeId)) nodes
  refine ⟨?_, by rw [hids]; exact h.distinct, fun n => ?_, fun row hrow => ?_⟩
  · simpa [updateKey] using h.bounded
  · rw [hids, h.present n]
    obtain ⟨r, hr, hid⟩ := (h.present _).mp hknown
    constructor
    · rintro ⟨r', hr', rfl⟩
      exact ⟨r', List.mem_append_left _ hr', rfl⟩
    · rintro ⟨r', hr', rfl⟩
      rcases List.mem_append.mp hr' with hr' | hr'
      · exact ⟨r', hr', rfl⟩
      · obtain rfl : r' = report := by simpa using hr'
        exact ⟨r, hr, hid⟩
  · obtain ⟨old, hold, rfl⟩ := List.mem_map.mp hrow
    split
    · rename_i hid
      exact summarises_file hid (h.rows old hold).count
    · rename_i hid
      exact (h.rows old hold).append_of_ne (Ne.symm hid)

/-- A report of a new node. -/
theorem Follows.insert [Inhabited M] {nodes : List (NodeReport N M)} {history : List (Report N M)}
    (h : Follows nodes history) {report : Report N M} (hnew : report.reporterId ∉ ids nodes)
    (hroom : nodes.length < maxNodes) :
    Follows (nodes ++ [(NodeReport.blank report.reporterId).file report]) (history ++ [report]) := by
  have hids : ids (nodes ++ [(NodeReport.blank report.reporterId).file report]) =
      ids nodes ++ [report.reporterId] := by
    simp [ids, NodeReport.file, NodeReport.blank]
  have hnone : ofKey Report.reporterId history report.reporterId = [] := by
    refine List.filter_eq_nil_iff.mpr fun r hr hid => hnew ?_
    exact (h.present _).mpr ⟨r, hr, by simpa using hid⟩
  refine ⟨by simpa using Nat.succ_le_of_lt hroom, ?_, fun n => ?_, fun row hrow => ?_⟩
  · rw [hids]
    exact h.distinct.append (by simp) (by simpa using hnew)
  · rw [hids]
    simp [h.present n, or_and_right, exists_or, eq_comm]
  · rcases List.mem_append.mp hrow with hrow | hrow
    · refine (h.rows row hrow).append_of_ne fun hid => hnew ?_
      exact hid ▸ List.mem_map_of_mem hrow
    · obtain rfl : row = (NodeReport.blank report.reporterId).file report := by simpa using hrow
      exact summarises_file rfl (by simp [NodeReport.blank, hnone])

theorem findIdx_none {nodes : List (NodeReport N M)} {id : N}
    (h : nodes.findIdx? (fun row => row.nodeId = id) = none) :
    id ∉ ids nodes := by
  intro hmem
  obtain ⟨row, hrow, rfl⟩ := List.mem_map.mp hmem
  simpa using List.findIdx?_eq_none_iff.mp h row hrow

end Table

/-! ## What a request does -/

section Requests
variable {N M Item : Type} [DecidableEq N] [Inhabited M] {codec : Codec N M Item}
  {nodes : List (NodeReport N M)} {history : List (Report N M)} {request : Request}

/-- **What a request does**: it is refused and the table stays as it is, or its report is filed in
the row of a known node, or in a new row.  The last two indices are the table afterwards and
whether the request was answered with 200.  A refusal says why: there was no report in the
request, or it came from a new node and the table had no room; so the cases say exactly when a
report is accepted, too. -/
inductive Handled (codec : Codec N M Item) (nodes : List (NodeReport N M)) (request : Request) :
    List (NodeReport N M) → Bool → Prop
  | undecoded (hdecoded : decoded codec request = none) : Handled codec nodes request nodes false
  | full {report : Report N M} (hdecoded : decoded codec request = some report)
      (hnew : report.reporterId ∉ ids nodes) (hfull : maxNodes ≤ nodes.length) :
      Handled codec nodes request nodes false
  | known {report : Report N M} {index : Nat} (hdecoded : decoded codec request = some report)
      (hindex : index < nodes.length) (hid : nodes[index].nodeId = report.reporterId) :
      Handled codec nodes request (nodes.modify index (NodeReport.file report)) true
  | new {report : Report N M} (hdecoded : decoded codec request = some report)
      (hnew : report.reporterId ∉ ids nodes) (hroom : nodes.length < maxNodes) :
      Handled codec nodes request
        (nodes ++ [(NodeReport.blank report.reporterId).file report]) true

theorem handleReport_handled (codec : Codec N M Item) (nodes : List (NodeReport N M))
    (request : Request) :
    Handled codec nodes request (handleReport codec nodes request).1
      (accepts codec nodes request) := by
  unfold accepts handleReport
  split
  · rename_i hother
    refine .undecoded (if_neg fun h => ?_)
    rcases hother with hmethod | hpath
    · exact hmethod h.1
    · exact hpath h.2.1
  · rename_i hmine
    obtain ⟨hmethod, hpath⟩ := not_or.mp hmine
    rw [not_ne_iff] at hmethod hpath
    split
    · rename_i hbody
      exact .undecoded (if_neg fun h => h.2.2 hbody)
    · rename_i hbody
      have hdecoded : decoded codec request =
          (codec.cborLoad request.body).bind codec.topologyReportDecode :=
        if_pos ⟨hmethod, hpath, hbody⟩
      cases hload : codec.cborLoad request.body with
      | none => exact .undecoded (by rw [hdecoded, hload]; rfl)
      | some item =>
        rw [hload, Option.bind_some] at hdecoded
        dsimp only
        cases hreport : codec.topologyReportDecode item with
        | none => exact .undecoded (hdecoded.trans hreport)
        | some report =>
          rw [hreport] at hdecoded
          dsimp only
          unfold findOrCreateNode
          cases hfind : nodes.findIdx? (fun row => row.nodeId = report.reporterId) with
          | some index =>
            obtain ⟨hindex, hid, -⟩ := List.findIdx?_eq_some_iff_getElem.mp hfind
            exact .known hdecoded hindex (by simpa using hid)
          | none =>
            have hnew := findIdx_none hfind
            by_cases hfull : nodes.length ≥ maxNodes
            · simp only [if_pos hfull]
              exact .full hdecoded hnew hfull
            · simp only [if_neg hfull, modify_concat]
              exact .new hdecoded hnew (Nat.lt_of_not_le hfull)

/-- A request keeps the table true to the accepted reports. -/
theorem follows_serve (codec : Codec N M Item) (h : Follows nodes history) (request : Request) :
    Follows (serve codec (nodes, history) request).1 (serve codec (nodes, history) request).2 := by
  have hhandled := handleReport_handled codec nodes request
  unfold serve
  dsimp only
  generalize (handleReport codec nodes request).1 = nodes', accepts codec nodes request = ok
    at hhandled
  cases hhandled with
  | undecoded | full => simpa using h
  | known hdecoded hindex hid =>
    rw [hdecoded, modify_eq_updateKey h.distinct hindex, hid]
    exact h.update (hid ▸ List.mem_map_of_mem (List.getElem_mem hindex))
  | new hdecoded hnew hroom =>
    rw [hdecoded]
    exact h.insert hnew hroom

/-- **After any number of requests the table follows the accepted reports.** -/
theorem follows_serveAll (codec : Codec N M Item) (requests : List Request) :
    Follows (serveAll codec requests).1 (serveAll codec requests).2 := by
  unfold serveAll
  generalize hstart : (([], []) : List (NodeReport N M) × List (Report N M)) = start
  have hfollows : Follows start.1 start.2 := by
    rw [← hstart]
    exact follows_nil
  clear hstart
  induction requests generalizing start with
  | nil => exact hfollows
  | cons request requests ih => exact ih _ (follows_serve codec hfollows request)

/-- A request that is not accepted leaves the table as it is. -/
theorem handleReport_refused (h : accepts codec nodes request = false) :
    (handleReport codec nodes request).1 = nodes := by
  have hhandled := handleReport_handled codec nodes request
  rw [h] at hhandled
  generalize (handleReport codec nodes request).1 = nodes' at hhandled
  cases hhandled with
  | undecoded | full => rfl

/-- Accepted are the reports of known nodes, and of new ones as long as there is room. -/
theorem accepts_iff :
    accepts codec nodes request = true ↔ ∃ report, decoded codec request = some report ∧
      (report.reporterId ∈ ids nodes ∨ nodes.length < maxNodes) := by
  have hhandled := handleReport_handled codec nodes request
  generalize (handleReport codec nodes request).1 = nodes', accepts codec nodes request = ok
    at hhandled
  cases hhandled with
  | undecoded hdecoded => simp [hdecoded]
  | full hdecoded hnew hfull => simp [hdecoded, hnew, hfull]
  | known hdecoded hindex hid =>
    simp only [true_iff]
    exact ⟨_, hdecoded, .inl (hid ▸ List.mem_map_of_mem (List.getElem_mem hindex))⟩
  | new hdecoded hnew hroom =>
    simp only [true_iff]
    exact ⟨_, hdecoded, .inr hroom⟩

/-- **A report of one of at most 256 nodes is always accepted**, so that the history of a run
is what was sent. -/
theorem serveAll_history (codec : Codec N M Item) {few : List N} (hfew : few.length ≤ maxNodes)
    {requests : List Request}
    (hall : ∀ request ∈ requests, ∃ report, decoded codec request = some report ∧
      report.reporterId ∈ few) :
    (serveAll codec requests).2 = requests.filterMap (decoded codec) := by
  induction requests using List.reverseRecOn with
  | nil => rfl
  | append_singleton requests request ih =>
    have hbefore := ih fun r hr => hall r (List.mem_append_left _ hr)
    have hfollows := follows_serveAll codec requests
    obtain ⟨report, hdecoded, hmem⟩ := hall request (by simp)
    have hids : ∀ n ∈ ids (serveAll codec requests).1, n ∈ few := by
      intro n hn
      obtain ⟨r, hr, rfl⟩ := (hfollows.present n).mp hn
      rw [hbefore] at hr
      obtain ⟨request', hrequest', hr⟩ := List.mem_filterMap.mp hr
      obtain ⟨r', hr', hfew'⟩ := hall request' (List.mem_append_left _ hrequest')
      obtain rfl : r' = r := Option.some.inj (hr'.symm.trans hr)
      exact hfew'
    have haccepts : accepts codec (serveAll codec requests).1 request = true := by
      refine accepts_iff.mpr ⟨report, hdecoded, ?_⟩
      by_cases hknown : report.reporterId ∈ ids (serveAll codec requests).1
      · exact .inl hknown
      · -- Then there is one more node than rows.
        have hnodup : (report.reporterId :: ids (serveAll codec requests).1).Nodup :=
          List.nodup_cons.mpr ⟨hknown, hfollows.distinct⟩
        have hsubset : report.reporterId :: ids (serveAll codec requests).1 ⊆ few :=
          List.cons_subset.mpr ⟨hmem, hids⟩
        have hle := List.Nodup.length_le_of_subset hnodup hsubset
        simp only [List.length_cons, ids, List.length_map] at hle
        exact .inr (by omega)
    have hserve : serveAll codec (requests ++ [request]) =
        serve codec (serveAll codec requests) request := by
      simp [serveAll, List.foldl_append]
    rw [hserve, serve, haccepts, hbefore, List.filterMap_append]
    simp [hdecoded]

/-- **What the table is worth** after the reports in `history` have been accepted: its size, one
row for each node that has reported and for no other, with the last report of the node and their
number, and no change by a request that is refused. -/
structure TableInvariant (codec : Codec N M Item) (nodes : List (NodeReport N M))
    (history : List (Report N M)) : Prop where
  bounded : nodes.length ≤ 256
  distinct : (ids nodes).Nodup
  present : ∀ n, n ∈ ids nodes ↔ ∃ r ∈ history, r.reporterId = n
  latest : ∀ row ∈ nodes, ∃ r, last Report.reporterId history row.nodeId = some r ∧
    row.latest = r.metrics ∧ row.lastSeenMs = r.timestampMs
  counted : ∀ row ∈ nodes, (ofKey Report.reporterId history row.nodeId).length < 2 ^ 31 →
    row.reportCount = (ofKey Report.reporterId history row.nodeId).length
  refused : ∀ request, accepts codec nodes request = false →
    (handleReport codec nodes request).1 = nodes
  /-- Also by a full table, if the node is known. -/
  accepted : ∀ request, accepts codec nodes request = true ↔
    ∃ report, decoded codec request = some report ∧
      (report.reporterId ∈ ids nodes ∨ nodes.length < 256)

/-- **The table invariant**, for every sequence of requests.  The bound, the distinct nodes and
the presence of every node that has been accepted are parts of what the table follows (`Follows`);
that each row has the latest report of its node and the number of its reports comes from the row's
own relation to the history.  The last two parts are about one request: what is refused changes
nothing, and when a report is accepted. -/
theorem node_table_invariant (codec : Codec N M Item) (requests : List Request) :
    TableInvariant codec (serveAll codec requests).1 (serveAll codec requests).2 := by
  have hfollows := follows_serveAll codec requests
  exact
    { bounded := hfollows.bounded
      distinct := hfollows.distinct
      present := hfollows.present
      latest := fun row hrow => (hfollows.rows row hrow).latest
      counted := fun row hrow hbelow => (hfollows.rows row hrow).reportCount hbelow
      refused := fun _ => handleReport_refused
      accepted := fun _ => accepts_iff }

end Requests

end Offs.Metrics
