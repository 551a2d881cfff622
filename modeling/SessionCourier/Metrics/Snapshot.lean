import SessionCourier.Metrics.Store

set_option autoImplicit false

namespace SessionCourier.Metrics

inductive Kind where
  | counter
  | gauge
  | histogram
  deriving DecidableEq, Repr

namespace Kind

def label : Kind → String
  | .counter => "counter"
  | .gauge => "gauge"
  | .histogram => "histogram"

def all : List Kind := [.counter, .gauge, .histogram]

def decoder : Json.Decoder Kind := Json.oneOf (all.map fun k => (k.label, k))

end Kind

structure Entry where
  series : Series
  value : Float
  kind : Kind

namespace Entry

def encodeLabel (l : Label) : Json.Value := .list [.string l.1, .string l.2]

def encode (e : Entry) : Json.Value :=
  .object [("name", .string e.series.name), ("labels", .list (e.series.labels.map encodeLabel)),
    ("value", .float e.value), ("metric_type", .string e.kind.label)]

def labelRecord : Json.Record Label :=
  ((Json.Record.pure Prod.mk).and (.required "0" Json.text)).and (.required "1" Json.text)

def record : Json.Record Entry :=
  ((((Json.Record.pure fun name labels value kind => Entry.mk ⟨name, labels⟩ value kind).and
    (.required "name" Json.text)).and (.required "labels" (Json.list labelRecord.tuple))).and
    (.required "value" Json.float)).and (.required "metric_type" Kind.decoder)

def decoder : Json.Decoder Entry := record.decoder "struct MetricsSnapshot"

end Entry

namespace Store

def counterEntries (s : Store) : List Entry :=
  s.counters.map fun c => ⟨c.1, c.2.toFloat, .counter⟩

def gaugeEntries (s : Store) : List Entry := s.gauges.map fun g => ⟨g.1, Float.ofBits g.2, .gauge⟩

def histogramEntries (s : Store) : List Entry :=
  s.histograms.map fun h => ⟨h.1, (Summary.ofAscending h.2).p50, .histogram⟩

/-- Breaks off with the summary of any histogram. -/
def snapshot? (s : Store) : Option (List Entry) :=
  (s.summarised? fun _ => true).map fun s =>
    (s.counterEntries ++ s.gaugeEntries ++ s.histogramEntries).mergeSort
      fun a b => a.series.le b.series

end Store

def encodeSnapshot (entries : List Entry) : Json.Value := .list (entries.map Entry.encode)

end SessionCourier.Metrics
