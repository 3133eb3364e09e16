import ChannelRouter.Director

/-!
# Metrics

Eight metrics tell an operator what the program does: connections, datagrams and
bytes by direction, three measures of the router's size, and faults by kind.  A
metric shows up in the text once it has been touched, with its type, with its
description if the descriptions were registered, and with its samples.
-/

namespace ChannelRouter

/-- Where a counted datagram travelled. -/
inductive Direction where
  | inbound
  | outbound
  | fromParent
  | toParent
deriving DecidableEq, Repr

namespace Direction

/-- The label value of a direction. -/
def label : Direction → String
  | inbound => "inbound"
  | outbound => "outbound"
  | fromParent => "upstream_in"
  | toParent => "upstream_out"

end Direction

/-- What went wrong on a connection. -/
inductive Fault where
  | read
  | write
  | accept
  | parentRead
  | parentWrite
deriving DecidableEq, Repr

namespace Fault

/-- The label value of a fault. -/
def label : Fault → String
  | read => "read"
  | write => "write"
  | accept => "accept"
  | parentRead => "upstream_read"
  | parentWrite => "upstream_write"

end Fault

/-- What is measured. -/
inductive Metric where
  | connectionsTotal
  | connectionsActive
  | datagramsTotal
  | datagramsBytes
  | channelsActive
  | rangeIntervals
  | queueDepth
  | errorsTotal
deriving DecidableEq, Repr

namespace Metric

/-- Every metric. -/
def all : List Metric :=
  [connectionsTotal, connectionsActive, datagramsTotal, datagramsBytes,
    channelsActive, rangeIntervals, queueDepth, errorsTotal]

/-- The name of a metric. -/
def name : Metric → String
  | connectionsTotal => "astron_md_connections_total"
  | connectionsActive => "astron_md_connections_active"
  | datagramsTotal => "astron_md_datagrams_total"
  | datagramsBytes => "astron_md_datagrams_bytes"
  | channelsActive => "astron_md_channels_active"
  | rangeIntervals => "astron_md_range_intervals"
  | queueDepth => "astron_md_queue_depth"
  | errorsTotal => "astron_md_errors_total"

/-- What a metric tells. -/
def description : Metric → String
  | connectionsTotal => "Total number of participant connections since start"
  | connectionsActive => "Current number of participant connections"
  | datagramsTotal => "Datagrams read or written"
  | datagramsBytes => "Datagram bytes read or written"
  | channelsActive => "Channels with at least one discrete subscriber"
  | rangeIntervals => "Stored range subscription intervals"
  | queueDepth => "Datagrams waiting for dispatch"
  | errorsTotal => "Transport and protocol errors"

/-- Whether a metric only ever grows, or follows a quantity up and down. -/
def kind : Metric → String
  | connectionsTotal | datagramsTotal | datagramsBytes | errorsTotal =>
    "counter"
  | connectionsActive | channelsActive | rangeIntervals | queueDepth => "gauge"

end Metric

/-- A metric, or the part of it with one label. -/
structure Series where
  metric : Metric
  /-- The name and the value of the label. -/
  label : Option (String × String)
deriving DecidableEq, Repr

namespace Series

/-- A metric without labels. -/
def whole (metric : Metric) : Series := ⟨metric, none⟩

/-- The part of a metric for one direction. -/
def along (metric : Metric) (direction : Direction) : Series :=
  ⟨metric, some ("direction", direction.label)⟩

/-- The faults of one kind. -/
def ofFault (fault : Fault) : Series :=
  ⟨.errorsTotal, some ("type", fault.label)⟩

/-- How a sample of the series is written. -/
def line (series : Series) (value : Nat) : String :=
  match series.label with
  | none => s!"{series.metric.name} {value}"
  | some (name, label) =>
    s!"{series.metric.name}\x7b{name}=\"{label}\"\x7d {value}"

end Series

/-- The values of all series that were touched. -/
structure Metrics where
  /-- Whether the descriptions are registered. -/
  described : Bool
  values : List (Series × Nat)
deriving DecidableEq, Repr

namespace Metrics

/-- Nothing touched yet. -/
def start (described : Bool) : Metrics := ⟨described, []⟩

/-- The value of a series, if it was touched. -/
def value? (metrics : Metrics) (series : Series) : Option Nat :=
  metrics.values.lookup series

/-- Set the value of a series. -/
def set (metrics : Metrics) (series : Series) (value : Nat) : Metrics :=
  { metrics with
    values := (series, value) :: metrics.values.filter (·.1 ≠ series) }

/-- Change the value of a series, which begins at zero. -/
def change (metrics : Metrics) (series : Series) (step : Nat → Nat) : Metrics :=
  metrics.set series (step ((metrics.value? series).getD 0))

/-- A connection is opened. -/
def opened (metrics : Metrics) : Metrics :=
  (metrics.change (.whole .connectionsTotal) (· + 1)).change
    (.whole .connectionsActive) (· + 1)

/-- A connection is no longer served. -/
def ended (metrics : Metrics) : Metrics :=
  metrics.change (.whole .connectionsActive) (· - 1)

/-- A datagram travelled. -/
def carried (metrics : Metrics) (direction : Direction) (body : Datagram) :
    Metrics :=
  (metrics.change (.along .datagramsTotal direction) (· + 1)).change
    (.along .datagramsBytes direction) (· + body.length)

/-- Something went wrong. -/
def faulted (metrics : Metrics) (fault : Fault) : Metrics :=
  metrics.change (.ofFault fault) (· + 1)

/-- Publish the router's size. -/
def publish (metrics : Metrics) (stats : DirectorStats) : Metrics :=
  ((metrics.set (.whole .channelsActive) stats.channels).set
    (.whole .rangeIntervals) stats.rangeIntervals).set (.whole
      .queueDepth) stats.queued

/-- The lines about one metric, none if it was not touched. -/
def linesOf (metrics : Metrics) (metric : Metric) : List String :=
  match metrics.values.filter (·.1.metric = metric) with
  | [] => []
  | touched =>
    (if metrics.described then [s!"# HELP {metric.name} {metric.description}"]
      else []) ++ s!"# TYPE {metric.name} {metric.kind}" ::
        touched.map fun sample => sample.1.line sample.2

/-- The text of the metrics, by lines. -/
def lines (metrics : Metrics) : List String :=
  Metric.all.flatMap metrics.linesOf

end Metrics

end ChannelRouter
