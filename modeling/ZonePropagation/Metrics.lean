import ZonePropagation.Probe
import ZonePropagation.Zone
/-!
What a manager counts of its own work, and the text in which the counts are exposed.

A count belongs to a thing measured, with everything that sets it apart.  The text groups counts
into families; a family whose counts carry labels appears with its first count, and one without
labels always.
-/

namespace ZonePropagation

inductive ProbeKind where
  | announcement
  | question
deriving DecidableEq, Repr

def ProbeKind.text : ProbeKind → String
  | .announcement => "notify"
  | .question => "soa"

inductive Timer where
  | recovery
  | sync
deriving DecidableEq, Repr

def Timer.text : Timer → String
  | .recovery => "recovery"
  | .sync => "sync"

inductive Measure where
  | backendCall (type : String) (action : ZoneAction) (accepted : Bool)
  | probe (kind : ProbeKind) (outcome : String)
  | verificationStarted
  | verificationFinished (action : ZoneAction) (status : Status)
  | verdict (action : ZoneAction) (status : Status)
  | reportFailure
  | reconciled (timer : Timer) (succeeded : Bool)
deriving DecidableEq, Repr

structure Metrics where
  counts : List (Measure × Nat) := []
deriving Repr, Inhabited

namespace Metrics

def count (metrics : Metrics) (measure : Measure) : Nat :=
  ((metrics.counts.find? fun entry => entry.1 == measure).map Prod.snd).getD 0

def add (metrics : Metrics) (measure : Measure) : Metrics :=
  ⟨(measure, metrics.count measure + 1) ::
    metrics.counts.filter fun entry => entry.1 != measure⟩

/-! ### Exposition -/

/-- A count with its labels, which stand in alphabetical order. -/
structure Series where
  labels : List (String × String)
  value : Nat
deriving Repr

inductive FamilyKind where
  | counter
  | gauge
  | histogram
deriving DecidableEq, Repr

def FamilyKind.text : FamilyKind → String
  | .counter => "counter"
  | .gauge => "gauge"
  | .histogram => "histogram"

structure Family where
  name : String
  help : String
  kind : FamilyKind
  series : List Series
deriving Repr

def resultWord (succeeded : Bool) : String :=
  if succeeded then "ok" else "error"

def labelled (metrics : Metrics) (labels : Measure → Option (List (String × String))) :
    List Series :=
  metrics.counts.filterMap fun entry => (labels entry.1).map fun found => ⟨found, entry.2⟩

/-- The number of verifications of any action and result that have finished. -/
def finished (metrics : Metrics) : Nat :=
  metrics.counts.foldl (fun total entry =>
    match entry.1 with
    | .verificationFinished _ _ => total + entry.2
    | _ => total) 0

def families (metrics : Metrics) : List Family := [
  { name := "zonepool_backend_calls_total"
    help := "Backend driver calls by backend type, action and result"
    kind := .counter
    series := metrics.labelled fun
      | .backendCall type action accepted => some
          [("action", action.text), ("backend", type), ("result", resultWord accepted)]
      | _ => none },
  { name := "zonepool_consensus_total"
    help := "Consensus decisions by action and status"
    kind := .counter
    series := metrics.labelled fun
      | .verdict action status => some [("action", action.text), ("status", status.text)]
      | _ => none },
  { name := "zonepool_reconciler_zones_total"
    help := "Zones processed by the periodic timers"
    kind := .counter
    series := metrics.labelled fun
      | .reconciled timer succeeded => some
          [("result", resultWord succeeded), ("timer", timer.text)]
      | _ => none },
  { name := "zonepool_report_failures_total"
    help := "Consensus reports that could not be delivered to the central store"
    kind := .counter
    series := [⟨[], metrics.count .reportFailure⟩] },
  { name := "zonepool_verification_duration_seconds"
    help := "Time to verify one nameserver, including delays and retries"
    kind := .histogram
    series := metrics.labelled fun
      | .verificationFinished action status => some
          [("action", action.text), ("status", status.text)]
      | _ => none },
  { name := "zonepool_verifications_in_flight"
    help := "Nameserver verifications currently running"
    kind := .gauge
    series := [⟨[], metrics.count .verificationStarted - metrics.finished⟩] },
  { name := "zonepool_wire_requests_total"
    help := "DNS probes by kind (notify/soa) and final outcome"
    kind := .counter
    series := metrics.labelled fun
      | .probe kind outcome => some [("kind", kind.text), ("outcome", outcome)]
      | _ => none }]

def labelText (labels : List (String × String)) : String :=
  if labels.isEmpty then ""
  else
    let each (label : String × String) : String := label.1 ++ "=\"" ++ label.2 ++ "\""
    "\x7b" ++ ",".intercalate (labels.map each) ++ "\x7d"

/-- The order of series by the values of their labels, the first that differs counting. -/
def Series.precedes (left right : Series) : Bool :=
  match (left.labels.zip right.labels).find? fun pair => pair.1.2 != pair.2.2 with
  | some (one, other) => one.2 < other.2
  | none => left.labels.length ≤ right.labels.length

/-- The lines of a family.  Of a histogram they show the number of observations. -/
def Family.lines (family : Family) : List String :=
  let measured := match family.kind with
    | .histogram => family.name ++ "_count"
    | _ => family.name
  if family.series.isEmpty then []
  else
    [s!"# HELP {family.name} {family.help}", s!"# TYPE {family.name} {family.kind.text}"] ++
      (family.series.mergeSort Series.precedes).map fun series =>
        measured ++ labelText series.labels ++ " " ++ toString series.value

def lines (metrics : Metrics) : List String :=
  metrics.families.flatMap Family.lines

end Metrics

end ZonePropagation
