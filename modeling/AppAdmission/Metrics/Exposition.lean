import AppAdmission.Metrics.Registry
import AppAdmission.Binary64.Decimal
import AppAdmission.Text.Split

/-!
# Metrics as text

The text format that scrapers read. Families come in order of their names, and one without series
is left out; within a family the series come in order of their labels. The labels of a series come in
order of their names, and a bucket has its bound as a label behind them. Inside label values the
backslash, the quotation mark and the line break are escaped.
-/

namespace AppAdmission.Exposition

/-- One character of a label value. -/
def escapeChar (c : Char) : List Char :=
  if c = '\\' then ['\\', '\\']
  else if c = '"' then ['\\', '"']
  else if c = '\n' then ['\\', 'n']
  else [c]

/-- A label value in quotation marks. -/
def quote (s : String) : List Char := '"' :: s.toList.flatMap escapeChar ++ ['"']

/-- A label with its value. -/
def labelText (label : String × String) : List Char := label.1.toList ++ '=' :: quote label.2

/-- Labels between braces. -/
def labelsText (labels : List (String × String)) : List Char :=
  '\x7b' :: Text.joinWith ',' (labels.map labelText) ++ ['\x7d']

/-- One sample. -/
def sample (name : String) (labels : List (String × String)) (value : List Char) : List Char :=
  name.toList ++ labelsText labels ++ ' ' :: value ++ ['\n']

/-- The labels of a series by their names, in order of the names. -/
def pairs (l : MetricLabels) : List (String × String) := Members.sort (MetricLabels.names.zip l.values)

/-- The lines that introduce a family. -/
def header (name help kind : String) : List Char :=
  "# HELP ".toList ++ name.toList ++ ' ' :: help.toList ++ "\n# TYPE ".toList ++ name.toList
    ++ ' ' :: kind.toList ++ ['\n']

/-- A family with its introduction, or nothing if it has no series. -/
def family {α : Type} (name help kind : String) (render : MetricLabels → α → List Char)
    (series : List (MetricLabels × α)) : List Char :=
  if series.isEmpty then []
  else header name help kind ++ (Members.sort series).flatMap fun s => render s.1 s.2

/-- A number of things. -/
def natText (n : Nat) : List Char := Nat.toDigits 10 n

/-- A family of counts. -/
def counterFamily (r : Registry) (c : Counter) : List Char :=
  family c.name c.help "counter" (fun l n => sample c.name (pairs l) (natText n)) (r.counters c)

/-- The name of the histogram of durations. -/
def durationName : String := "appguard_admission_duration_seconds"

/-- A sum of durations. -/
def sumText : Double → List Char
  | .finite x => x.plain
  | .infinite true => "-inf".toList
  | .infinite false => "inf".toList
  | .nan => "NaN".toList

/-- The sample of a bucket with its bound. -/
def bucketSample (l : MetricLabels) (bound : List Char) (n : Nat) : List Char :=
  sample (durationName ++ "_bucket") (pairs l ++ [("le", String.ofList bound)]) (natText n)

/-- The samples of a histogram. -/
def histogramSamples (l : MetricLabels) (h : Histogram) : List Char :=
  (Histogram.cumulative 0 h.buckets).flatMap (fun b => bucketSample l b.1.plain b.2)
    ++ bucketSample l "+Inf".toList h.count
    ++ sample (durationName ++ "_sum") (pairs l) (sumText h.sum)
    ++ sample (durationName ++ "_count") (pairs l) (natText h.count)

/-- The family of durations. -/
def durationFamily (r : Registry) : List Char :=
  family durationName "Admission request handling time" "histogram" histogramSamples r.durations

/-- All series as text. -/
def render (r : Registry) : String :=
  String.ofList <| durationFamily r ++ counterFamily r .internalError ++ counterFamily r .invalidRequest
    ++ counterFamily r .rejected ++ counterFamily r .successful ++ counterFamily r .total

end AppAdmission.Exposition
