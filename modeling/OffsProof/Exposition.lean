import OffsProof.MetricsExport
import OffsProof.Samples

/-! # The text of `GET /metrics`

`_handle_metrics` prints the series into a buffer of 4096 bytes and answers 500 if they do not
fit.  They always do, whatever has been reported: the counters have 64 bits, the table has at
most 256 rows, and the longest `double` has 317 characters (`length_exposition_lt`).  A reader of
the text format gets back the numbers that were added up (`scraped_metrics_exact`).

The titles are fixed, so that what they need of the buffer, and that they can be read back, is
found by running them (`titles_exposition`); what varies is one number in each line, with at most
20 digits.  That the reader finds the number under its name is `scrape_flatMap`, once the names
are seen to be different from each other (`lookup_exposition`).  The number of rows is bounded
by the invariant of the table, after any requests.

The average Hebbian weight is a `double`.  It is taken as the text that `%f` makes of it, of
which it is assumed that it is one line and no longer than the longest such text (`Printed`).
-/
namespace Offs.Metrics
open CText Samples KeyedHistory

/-- A text of `%f`: at most a sign, 309 digits, a point and 6 more digits, in one line. -/
structure Printed (t : Text) : Prop where
  length_le : t.length ≤ 317
  line : '\n' ∉ t

/-- The integer series, in the order in which they are printed. -/
def counters (s : Series) : List (Text × Nat) :=
  [(lit "offs_nodes_total", s.nodes),
    (lit "offs_peers_total", s.peers.toNat),
    (lit "offs_ring_entries", s.ringEntries.toNat),
    (lit "offs_connections_total", s.connections.toNat),
    (lit "offs_rpc_calls_total", s.rpcCalls.toNat),
    (lit "offs_rpc_success_total", s.rpcSuccess.toNat),
    (lit "offs_rpc_failure_total", s.rpcFailure.toNat),
    (lit "offs_rate_limit_accepted_total", s.rateLimitAccepted.toNat),
    (lit "offs_rate_limit_rejected_total", s.rateLimitRejected.toNat)]

/-- The format string of `_handle_metrics`, with what it is given. -/
def exposition (s : Series) (average : Text) : List Metric :=
  [⟨⟨lit "offs_nodes_total", lit "Total number of tracked nodes reporting metrics", lit "gauge"⟩,
      decimal s.nodes⟩,
    ⟨⟨lit "offs_peers_total", lit "Total number of known peers across all nodes", lit "gauge"⟩,
      decimal s.peers.toNat⟩,
    ⟨⟨lit "offs_ring_entries", lit "Total ring set entries across all nodes", lit "gauge"⟩,
      decimal s.ringEntries.toNat⟩,
    ⟨⟨lit "offs_connections_total", lit "Total active connections across all nodes", lit "gauge"⟩,
      decimal s.connections.toNat⟩,
    ⟨⟨lit "offs_avg_hebbian_weight", lit "Average Hebbian weight across nodes", lit "gauge"⟩, average⟩,
    ⟨⟨lit "offs_rpc_calls_total", lit "Total RPC calls across all nodes", lit "counter"⟩,
      decimal s.rpcCalls.toNat⟩,
    ⟨⟨lit "offs_rpc_success_total", lit "Total successful RPC calls across all nodes", lit "counter"⟩,
      decimal s.rpcSuccess.toNat⟩,
    ⟨⟨lit "offs_rpc_failure_total", lit "Total failed RPC calls across all nodes", lit "counter"⟩,
      decimal s.rpcFailure.toNat⟩,
    ⟨⟨lit "offs_rate_limit_accepted_total", lit "Total rate-limited accepted requests", lit "counter"⟩,
      decimal s.rateLimitAccepted.toNat⟩,
    ⟨⟨lit "offs_rate_limit_rejected_total", lit "Total rate-limited rejected requests", lit "counter"⟩,
      decimal s.rateLimitRejected.toNat⟩]

/-- `sizeof(body)` -/
def bodySize : Nat := 4096

/-- `_handle_metrics`, without a response for a request that is left to other handlers. -/
def answerMetrics {N : Type} (average : List (NodeReport N TopologyMetrics) → Text)
    (nodes : List (NodeReport N TopologyMetrics)) (request : Request) : Option Response :=
  if request.method ≠ .get ∨ request.path ≠ lit "/metrics" then none
  else
    let body := (exposition (handleMetrics nodes) (average nodes)).flatMap Metric.render
    if body.length ≥ bodySize then some ⟨.internalServerError, []⟩ else some ⟨.ok, body⟩

/-! ## The text -/

section
variable {s : Series} {average : Text}

/-- The titles can be read back, and they leave more than half of the buffer. -/
theorem titles_exposition :
    ((exposition s average).map Metric.title).all Title.isClean = true ∧
      (((exposition s average).map Metric.title).map Title.frame).sum ≤ 1700 := by
  simp [exposition, Title.isClean, Title.frame, lit]

theorem line_exposition (h : Printed average) : ∀ m ∈ exposition s average, '\n' ∉ m.value := by
  simp only [exposition, List.forall_mem_cons, List.not_mem_nil, false_imp_iff, implies_true,
    newline_not_mem_decimal, not_false_eq_true, and_true, true_and]
  exact h.line

theorem length_toNat_le (n : UInt64) : (decimal n.toNat).length ≤ 20 :=
  length_decimal_le (by decide) (Nat.lt_trans n.toNat_lt (by decide))

/-- **The text always fits.** -/
theorem length_exposition_lt (h : Printed average) (hnodes : s.nodes ≤ maxNodes) :
    ((exposition s average).flatMap Metric.render).length < bodySize := by
  have hfirst : (decimal s.nodes).length ≤ 3 :=
    length_decimal_le (by decide) (Nat.lt_of_le_of_lt hnodes (by decide))
  have haverage := h.length_le
  rw [length_flatMap_render]
  refine Nat.lt_of_le_of_lt (Nat.add_le_add_right titles_exposition.2 _) ?_
  simp only [exposition, List.map_cons, List.map_nil, List.sum_cons, List.sum_nil, bodySize]
  have h1 := length_toNat_le s.peers
  have h2 := length_toNat_le s.ringEntries
  have h3 := length_toNat_le s.connections
  have h4 := length_toNat_le s.rpcCalls
  have h5 := length_toNat_le s.rpcSuccess
  have h6 := length_toNat_le s.rpcFailure
  have h7 := length_toNat_le s.rateLimitAccepted
  have h8 := length_toNat_le s.rateLimitRejected
  omega

/-- What a reader finds under the names of the integer series. -/
theorem lookup_exposition {name : Text} {n : Nat} (hn : (name, n) ∈ counters s) :
    ((exposition s average).map fun m => (m.title.name, m.value)).lookup name = some (decimal n) := by
  simp only [counters, List.mem_cons, Prod.mk.injEq, List.not_mem_nil, or_false] at hn
  rcases hn with ⟨rfl, rfl⟩ | ⟨rfl, rfl⟩ | ⟨rfl, rfl⟩ | ⟨rfl, rfl⟩ | ⟨rfl, rfl⟩ | ⟨rfl, rfl⟩ |
    ⟨rfl, rfl⟩ | ⟨rfl, rfl⟩ | ⟨rfl, rfl⟩ <;> rfl

theorem counters_lt (hnodes : s.nodes ≤ maxNodes) {name : Text} {n : Nat}
    (hn : (name, n) ∈ counters s) : n < 2 ^ 64 := by
  have hsmall : s.nodes < 2 ^ 64 := Nat.lt_of_le_of_lt hnodes (by decide)
  simp only [counters, List.mem_cons, Prod.mk.injEq, List.not_mem_nil, or_false] at hn
  rcases hn with ⟨-, rfl⟩ | ⟨-, rfl⟩ | ⟨-, rfl⟩ | ⟨-, rfl⟩ | ⟨-, rfl⟩ | ⟨-, rfl⟩ | ⟨-, rfl⟩ |
    ⟨-, rfl⟩ | ⟨-, rfl⟩
  · exact hsmall
  all_goals exact UInt64.toNat_lt _

end

/-! ## The answers -/

section
variable {N Item : Type}

theorem handleMetrics_nodes (nodes : List (NodeReport N TopologyMetrics)) :
    (handleMetrics nodes).nodes = nodes.length := by
  have hkeep : ∀ (rows : List (NodeReport N TopologyMetrics)) (s : Series),
      (rows.foldl (fun s row => addNode s row.latest) s).nodes = s.nodes := by
    intro rows
    induction rows with
    | nil => exact fun _ => rfl
    | cons row rows ih => exact fun s => ih (addNode s row.latest)
  exact hkeep nodes _

/-- **A scrape gives the sums.**  After any requests, `GET /metrics` is answered with 200, and a
reader finds under the name of each integer series a number that is what `_handle_metrics` has
added up, with nothing after it, and under the name of the average what `%f` has printed. -/
theorem scraped_metrics_exact [DecidableEq N] (codec : Codec N TopologyMetrics Item) (requests : List Request)
    (average : List (NodeReport N TopologyMetrics) → Text)
    (haverage : Printed (average (serveAll codec requests).1)) (body : List UInt8) :
    ∃ text, answerMetrics average (serveAll codec requests).1 ⟨.get, lit "/metrics", body⟩ =
        some ⟨.ok, text⟩ ∧
      (∀ name n, (name, n) ∈ counters (handleMetrics (serveAll codec requests).1) →
        ((scrape text).lookup name).map (strtoull 10) = some (n, [])) ∧
      (scrape text).lookup (lit "offs_avg_hebbian_weight") =
        some (average (serveAll codec requests).1) := by
  have hnodes : (handleMetrics (serveAll codec requests).1).nodes ≤ maxNodes := by
    rw [handleMetrics_nodes]
    exact (follows_serveAll codec requests).bounded
  have hfits := length_exposition_lt haverage hnodes
  refine ⟨(exposition (handleMetrics (serveAll codec requests).1)
    (average (serveAll codec requests).1)).flatMap Metric.render, ?_, ?_, ?_⟩
  · rw [answerMetrics, if_neg (by simp)]
    exact if_neg (Nat.not_le.mpr hfits)
  · intro name n hn
    rw [scrape_flatMap titles_exposition.1 (line_exposition haverage), lookup_exposition hn,
      Option.map_some, strtoull_decimal (counters_lt hnodes hn)]
  · rw [scrape_flatMap titles_exposition.1 (line_exposition haverage)]
    rfl

end

/-- Two nodes have reported rings of 5 and 7 entries. -/
theorem scraped_metrics_exact_rings :
    ∃ text, answerMetrics (fun _ => lit "0.000000") (serveAll ringCodec [post [1, 5], post [2, 7]]).1
        ⟨.get, lit "/metrics", []⟩ = some ⟨.ok, text⟩ ∧
      ((scrape text).lookup (lit "offs_ring_entries")).map (strtoull 10) = some (12, []) := by
  have hprinted : Printed (lit "0.000000") := ⟨by decide, by decide⟩
  obtain ⟨text, htext, hcounters, -⟩ :=
    scraped_metrics_exact ringCodec [post [1, 5], post [2, 7]] (fun _ => lit "0.000000") hprinted []
  have hring : (handleMetrics (serveAll ringCodec [post [1, 5], post [2, 7]]).1).ringEntries = 12 := by
    decide
  refine ⟨text, htext, hcounters _ _ ?_⟩
  simp [counters, hring]

end Offs.Metrics
