import AppAdmission.Metrics.Counter

/-!
# Metric series

The series that are shown to a scraper. A family holds its series in the order in which they came
up. A series is found again by a key that is made of its label values, and labels with the key of a
series share it, under the labels that came first. The key in use is the values run together, webhook
first, so two pairs of labels that run together to the same text share one series. Of this text a registry
keeps a hash of 64 bits only; that different texts may have the same hash is left out here.
-/

namespace AppAdmission

namespace Family

variable {α κ : Type} [DecidableEq κ]

/-- The series of some labels changed, or begun. -/
def update (key : List String → κ) (labels : MetricLabels) (begin' : α) (change : α → α) :
    List (MetricLabels × α) → List (MetricLabels × α)
  | [] => [(labels, change begin')]
  | (l, v) :: rest =>
    if key l.values = key labels.values then (l, change v) :: rest
    else (l, v) :: update key labels begin' change rest

end Family

/-- The upper bounds of the buckets for durations, in seconds. -/
def durationBounds : List Binary64 :=
  [.ofDecimal 5 3, .ofDecimal 1 2, .ofDecimal 25 3, .ofDecimal 5 2, .ofDecimal 1 1, .ofDecimal 25 2,
    .ofDecimal 5 1, .ofNat 1, .ofDecimal 25 1, .ofNat 5, .ofNat 10]

/-- Observed values by bucket, with their sum and number. -/
structure Histogram where
  buckets : List (Binary64 × Nat)
  sum : Double
  count : Nat
  deriving DecidableEq, Repr

namespace Histogram

/-- A histogram without values. -/
def empty : Histogram :=
  { buckets := durationBounds.map fun b => (b, 0), sum := .finite (.zero false), count := 0 }

/-- Counts a value in the first bucket whose bound it does not exceed. -/
def place (x : Double) : List (Binary64 × Nat) → List (Binary64 × Nat)
  | [] => []
  | (bound, n) :: rest => if x.leB bound then (bound, n + 1) :: rest else (bound, n) :: place x rest

/-- Observes a value. -/
def observe (h : Histogram) (x : Double) : Histogram :=
  { buckets := place x h.buckets, sum := h.sum.add x, count := h.count + 1 }

/-- The buckets with the number of values up to each bound, `before` being those below. -/
def cumulative (before : Nat) : List (Binary64 × Nat) → List (Binary64 × Nat)
  | [] => []
  | (bound, n) :: rest => (bound, before + n) :: cumulative (before + n) rest

end Histogram

/-- All series. -/
structure Registry where
  counters : Counter → List (MetricLabels × Nat) := fun _ => []
  durations : List (MetricLabels × Histogram) := []

namespace Registry

instance : Inhabited Registry := ⟨{}⟩

section Keyed

variable {κ : Type} [DecidableEq κ] (key : List String → κ)

/-- Notes an event, series being found by some key. -/
def noteBy (r : Registry) : MetricEvent → Registry
  | .increment counter labels =>
    { r with counters := fun c =>
        if c = counter then Family.update key labels 0 (· + 1) (r.counters c) else r.counters c }
  | .observe labels seconds =>
    { r with durations := Family.update key labels .empty (·.observe seconds) r.durations }

/-- Notes events in order, series being found by some key. -/
def noteAllBy (r : Registry) (events : List MetricEvent) : Registry := events.foldl (noteBy key) r

end Keyed

/-- Notes an event. -/
def note : Registry → MetricEvent → Registry := noteBy String.join

/-- Notes events in order. -/
def noteAll : Registry → List MetricEvent → Registry := noteAllBy String.join

end Registry

end AppAdmission
