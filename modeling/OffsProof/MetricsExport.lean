import Mathlib.Data.UInt
import OffsProof.MetricsTable

/-! # The metrics that are exported

`_handle_metrics` adds up what the rows of the table say, over nodes, RPC types and peers, in
counters that wrap around at 2^64.  The table has its rows in the order of first contact, so two
runs can have the same reports in different rows.  Addition does not see the difference: what
is exported is a function of the last accepted report of each node (`export_interleaving`).

The proof has two halves.  The loops over counters are sums, and sums modulo 2^64 commute, so
that the turns of the loop over the nodes can be exchanged (`addNode_comm`) and a permutation
of the table exports the same (`handleMetrics_eq_of_perm`).  And a table that follows its
history has for each node the last report of it (`Follows.row_iff`), so that two runs with the
same last reports end with tables that are permutations of each other.

The lengths of the arrays by RPC type belong to liboffs, so an array is a list of any length.
The average Hebbian weight, a `double`, is left out here; `Exposition` takes its text.
-/
namespace Offs.Metrics
open CText KeyedHistory

/-- `peer_metrics_snapshot_t`, as far as it is added up. -/
structure PeerSnapshot where
  rpcSuccess : List UInt64
  rpcFailure : List UInt64
  deriving Inhabited

/-- `topology_metrics_t`, as far as it is added up. -/
structure TopologyMetrics where
  peerSnapshots : List PeerSnapshot
  ringEntryCount : UInt64
  totalConnections : UInt64
  totalRpcCalls : List UInt64
  totalRateLimitAccepted : List UInt64
  totalRateLimitRejected : List UInt64
  deriving Inhabited

/-- The integer series of `GET /metrics`. -/
structure Series where
  nodes : Nat
  peers : UInt64
  ringEntries : UInt64
  connections : UInt64
  rpcCalls : UInt64
  rpcSuccess : UInt64
  rpcFailure : UInt64
  rateLimitAccepted : UInt64
  rateLimitRejected : UInt64
  deriving DecidableEq, Repr

/-- A loop that adds to a counter. -/
def addAll (total : UInt64) (counts : List UInt64) : UInt64 :=
  counts.foldl (fun total count => total + count) total

/-- One turn of the loop over the nodes. -/
def addNode (s : Series) (m : TopologyMetrics) : Series :=
  { s with
    peers := s.peers + UInt64.ofNat m.peerSnapshots.length
    ringEntries := s.ringEntries + m.ringEntryCount
    connections := s.connections + m.totalConnections
    rpcCalls := addAll s.rpcCalls m.totalRpcCalls
    rateLimitAccepted := addAll s.rateLimitAccepted m.totalRateLimitAccepted
    rateLimitRejected := addAll s.rateLimitRejected m.totalRateLimitRejected
    rpcSuccess := m.peerSnapshots.foldl (fun total snap => addAll total snap.rpcSuccess) s.rpcSuccess
    rpcFailure := m.peerSnapshots.foldl (fun total snap => addAll total snap.rpcFailure) s.rpcFailure }

/-- `_handle_metrics` -/
def handleMetrics {N : Type} (nodes : List (NodeReport N TopologyMetrics)) : Series :=
  nodes.foldl (fun s row => addNode s row.latest) ⟨nodes.length, 0, 0, 0, 0, 0, 0, 0, 0⟩

/-! ## Sums -/

theorem addAll_eq (total : UInt64) (counts : List UInt64) :
    addAll total counts = total + addAll 0 counts := by
  induction counts generalizing total with
  | nil => simp [addAll]
  | cons count counts ih =>
    have hcons : ∀ t, addAll t (count :: counts) = addAll (t + count) counts := fun _ => rfl
    rw [hcons, hcons, ih (total + count), ih (0 + count), zero_add, add_assoc]

theorem foldl_addAll_eq {α : Type} (counts : α → List UInt64) (total : UInt64) (l : List α) :
    l.foldl (fun total a => addAll total (counts a)) total =
      total + l.foldl (fun total a => addAll total (counts a)) 0 := by
  induction l generalizing total with
  | nil => simp
  | cons a l ih =>
    rw [List.foldl_cons, List.foldl_cons, ih (addAll total (counts a)), ih (addAll 0 (counts a)),
      addAll_eq total, add_assoc]

theorem addAll_comm (total : UInt64) (counts counts' : List UInt64) :
    addAll (addAll total counts) counts' = addAll (addAll total counts') counts := by
  rw [addAll_eq (addAll total counts) counts', addAll_eq (addAll total counts') counts,
    addAll_eq total counts, addAll_eq total counts', add_right_comm]

theorem foldl_addAll_comm {α : Type} (counts : α → List UInt64) (total : UInt64) (l l' : List α) :
    l'.foldl (fun total a => addAll total (counts a))
        (l.foldl (fun total a => addAll total (counts a)) total) =
      l.foldl (fun total a => addAll total (counts a))
        (l'.foldl (fun total a => addAll total (counts a)) total) := by
  rw [foldl_addAll_eq counts (l.foldl _ total) l', foldl_addAll_eq counts (l'.foldl _ total) l,
    foldl_addAll_eq counts total l, foldl_addAll_eq counts total l', add_right_comm]

/-- The nodes can be added in any order. -/
theorem addNode_comm (s : Series) (m m' : TopologyMetrics) :
    addNode (addNode s m) m' = addNode (addNode s m') m := by
  simp only [addNode, Series.mk.injEq, true_and]
  exact ⟨add_right_comm _ _ _, add_right_comm _ _ _, add_right_comm _ _ _, addAll_comm _ _ _,
    foldl_addAll_comm _ _ _ _, foldl_addAll_comm _ _ _ _, addAll_comm _ _ _, addAll_comm _ _ _⟩

theorem handleMetrics_eq_of_perm {N : Type} {nodes nodes' : List (NodeReport N TopologyMetrics)}
    (h : (nodes.map NodeReport.latest).Perm (nodes'.map NodeReport.latest)) :
    handleMetrics nodes = handleMetrics nodes' := by
  have hfold : ∀ (nodes : List (NodeReport N TopologyMetrics)) (s : Series),
      nodes.foldl (fun s row => addNode s row.latest) s =
        (nodes.map NodeReport.latest).foldl addNode s := fun nodes s => List.foldl_map.symm
  have hlength : nodes.length = nodes'.length := by simpa using h.length_eq
  unfold handleMetrics
  rw [hfold, hfold, hlength]
  exact h.foldl_eq' (fun m _ m' _ s => addNode_comm s m m') _

/-! ## Histories -/

section Histories
variable {N Item : Type} [DecidableEq N]

/-- What a table has for a node is its last report. -/
theorem Follows.row_iff {M : Type} {nodes : List (NodeReport N M)} {history : List (Report N M)}
    (h : Follows nodes history) (n : N) (m : M) :
    (∃ row ∈ nodes, row.nodeId = n ∧ row.latest = m) ↔
      ∃ r, last Report.reporterId history n = some r ∧ r.metrics = m := by
  constructor
  · rintro ⟨row, hrow, rfl, rfl⟩
    obtain ⟨r, hlast, hlatest, -⟩ := (h.rows row hrow).latest
    exact ⟨r, hlast, hlatest.symm⟩
  · rintro ⟨r, hlast, rfl⟩
    have hknown : n ∈ ids nodes := by
      rw [h.present, ← last_isSome_iff, hlast]
      rfl
    obtain ⟨row, hrow, rfl⟩ := List.mem_map.mp hknown
    obtain ⟨r', hlast', hlatest, -⟩ := (h.rows row hrow).latest
    obtain rfl : r' = r := Option.some.inj (hlast'.symm.trans hlast)
    exact ⟨row, hrow, rfl, hlatest⟩

/-- **Exported metrics do not depend on how the reports interleave**: two runs in which every node
has the same last accepted report, or none in both, export the same series.  The two tables have
the same rows in different order, as far as their latest reports go, because a row is in the table
just if its report is the last one of its node (`Follows.row_iff`).  And the sums that are
exported are the same for every order of the rows, also where they wrap around. -/
theorem export_interleaving (codec : Codec N TopologyMetrics Item) (requests requests' : List Request)
    (hlast : ∀ n, last Report.reporterId (serveAll codec requests).2 n =
      last Report.reporterId (serveAll codec requests').2 n) :
    handleMetrics (serveAll codec requests).1 = handleMetrics (serveAll codec requests').1 := by
  have hfollows := follows_serveAll codec requests
  have hfollows' := follows_serveAll codec requests'
  refine handleMetrics_eq_of_perm ?_
  refine perm_of_rows NodeReport.latest hfollows.distinct hfollows'.distinct fun n m => ?_
  rw [hfollows.row_iff, hfollows'.row_iff, hlast]

end Histories

/-! ## Two runs -/

/-- Reports of two bytes: a node and the size of its ring. -/
def ringCodec : Codec UInt8 TopologyMetrics (List UInt8) where
  cborLoad := some
  topologyReportDecode
    | [node, ring] => some ⟨node, 0, { (default : TopologyMetrics) with ringEntryCount := ring.toUInt64 }⟩
    | _ => none

/-- `POST /report` -/
def post (body : List UInt8) : Request := ⟨.post, lit "/report", body⟩

/-- Two nodes that report once, and in another order one of them twice. -/
theorem export_interleaving_rings :
    handleMetrics (serveAll ringCodec [post [1, 5], post [2, 7]]).1 =
        handleMetrics (serveAll ringCodec [post [2, 3], post [2, 7], post [1, 5]]).1 ∧
      (handleMetrics (serveAll ringCodec [post [1, 5], post [2, 7]]).1).ringEntries = 12 := by
  refine ⟨export_interleaving ringCodec _ _ fun n => ?_, by decide⟩
  have hfirst : (serveAll ringCodec [post [1, 5], post [2, 7]]).2 =
      [⟨1, 0, { (default : TopologyMetrics) with ringEntryCount := 5 }⟩,
        ⟨2, 0, { (default : TopologyMetrics) with ringEntryCount := 7 }⟩] := rfl
  have hsecond : (serveAll ringCodec [post [2, 3], post [2, 7], post [1, 5]]).2 =
      [⟨2, 0, { (default : TopologyMetrics) with ringEntryCount := 3 }⟩,
        ⟨2, 0, { (default : TopologyMetrics) with ringEntryCount := 7 }⟩,
        ⟨1, 0, { (default : TopologyMetrics) with ringEntryCount := 5 }⟩] := rfl
  rw [hfirst, hsecond]
  by_cases hone : n = 1
  · subst hone
    rfl
  · by_cases htwo : n = 2
    · subst htwo
      rfl
    · simp [last, ofKey, Ne.symm hone, Ne.symm htwo]

end Offs.Metrics
