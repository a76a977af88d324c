import AppAdmission.Admission.Webhook
import AppAdmission.Binary64.Basic

/-!
# Counting requests

Every request is counted in total and once more by how it ended, and its duration is observed,
under the kind of the webhook and the resource. What is to be noted is an `Event`; a `Tally` is the
plain record of all events.
-/

namespace AppAdmission

/-- What is counted. -/
inductive Counter where
  | total
  | invalidRequest
  | rejected
  | internalError
  | successful
  deriving DecidableEq, Repr

namespace Counter

/-- Every counter. -/
def all : List Counter := [total, invalidRequest, rejected, internalError, successful]

/-- The name under which a counter is shown. -/
def name : Counter → String
  | total => "appguard_admission_total"
  | invalidRequest => "appguard_admission_invalid_request_total"
  | rejected => "appguard_admission_rejected_total"
  | internalError => "appguard_admission_internal_error_total"
  | successful => "appguard_admission_successful_total"

/-- What a counter counts, in words. -/
def help : Counter → String
  | total => "Admission requests received"
  | invalidRequest => "Admission requests that could not be decoded"
  | rejected => "Admission requests denied by policy"
  | internalError => "Admission requests that failed internally"
  | successful => "Admission requests allowed"

end Counter

/-- The counter of an outcome. -/
def Outcome.counter : Outcome → Counter
  | invalidRequest => .invalidRequest
  | rejected => .rejected
  | internalError => .internalError
  | successful => .successful

/-- The labels under which something is counted. -/
structure MetricLabels where
  webhook : String
  resource : String
  deriving DecidableEq, Repr

namespace MetricLabels

/-- The names of the labels, in the order in which their values are handed over. -/
def names : List String := ["webhook", "resource"]

/-- The values of the labels, in the order of their names. -/
def values (l : MetricLabels) : List String := [l.webhook, l.resource]

/-- Labels in order of resource, then webhook. -/
instance : LT MetricLabels :=
  ⟨fun a b => a.resource < b.resource ∨ a.resource = b.resource ∧ a.webhook < b.webhook⟩

instance : DecidableLT MetricLabels := fun a b =>
  inferInstanceAs (Decidable (a.resource < b.resource ∨ a.resource = b.resource ∧ a.webhook < b.webhook))

theorem lt_iff {a b : MetricLabels} :
    a < b ↔ a.resource < b.resource ∨ a.resource = b.resource ∧ a.webhook < b.webhook := Iff.rfl

instance : KeyOrder MetricLabels where
  lt_irrefl a h := by
    rcases lt_iff.1 h with h | ⟨_, h⟩
    · exact String.lt_irrefl _ h
    · exact String.lt_irrefl _ h
  lt_trans {a b c} hab hbc := by
    rcases lt_iff.1 hab with h1 | ⟨r1, h1⟩ <;> rcases lt_iff.1 hbc with h2 | ⟨r2, h2⟩
    · exact lt_iff.2 (Or.inl (String.lt_trans h1 h2))
    · exact lt_iff.2 (Or.inl (r2 ▸ h1))
    · exact lt_iff.2 (Or.inl (r1 ▸ h2))
    · exact lt_iff.2 (Or.inr ⟨r1.trans r2, String.lt_trans h1 h2⟩)
  lt_of_not_lt {a b} h hne := by
    rw [lt_iff] at h
    refine lt_iff.2 ?_
    by_cases hr : a.resource = b.resource
    · refine Or.inr ⟨hr.symm, KeyOrder.lt_of_not_lt (fun hl => h (Or.inr ⟨hr, hl⟩)) fun hw => hne ?_⟩
      obtain ⟨aw, ar⟩ := a
      obtain ⟨bw, br⟩ := b
      cases hr
      cases hw
      rfl
    · exact Or.inl (KeyOrder.lt_of_not_lt (fun hl => h (Or.inl hl)) hr)

end MetricLabels

/-- Something to be noted. -/
inductive MetricEvent where
  | increment (counter : Counter) (labels : MetricLabels)
  | observe (labels : MetricLabels) (seconds : Double)
  deriving DecidableEq, Repr

/-- What is noted of a request. -/
def Outcome.events (o : Outcome) (labels : MetricLabels) (seconds : Binary64) : List MetricEvent :=
  [.increment .total labels, .increment o.counter labels, .observe labels seconds]

/-- The labels of a webhook. -/
def Webhook.labels {T : Type} (w : Webhook T) : MetricLabels := ⟨w.kindName, w.resource⟩

/-- The plain record of events. -/
structure Tally where
  counts : Counter → MetricLabels → Nat := fun _ _ => 0
  durations : MetricLabels → List Double := fun _ => []

namespace Tally

instance : Inhabited Tally := ⟨{}⟩

/-- Notes an event. -/
def note (t : Tally) : MetricEvent → Tally
  | .increment counter labels =>
    { t with counts := fun c l =>
        if c = counter ∧ l = labels then t.counts c l + 1 else t.counts c l }
  | .observe labels seconds =>
    { t with durations := fun l =>
        if l = labels then t.durations l ++ [seconds] else t.durations l }

/-- Notes events in order. -/
def noteAll (t : Tally) (events : List MetricEvent) : Tally := events.foldl note t

/-- The number of durations observed. -/
def durationCount (t : Tally) (labels : MetricLabels) : Nat := (t.durations labels).length

end Tally

end AppAdmission
