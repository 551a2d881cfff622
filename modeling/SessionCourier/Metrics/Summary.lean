import SessionCourier.Json.Decoder
import SessionCourier.Json.Printer
import SessionCourier.Sorting.Stable

set_option autoImplicit false

namespace SessionCourier.Metrics

structure Summary where
  count : UInt64
  sum : Float
  p50 : Float
  p95 : Float
  p99 : Float

/-- Numbers in ascending order. -/
def ascending (values : List Float) : List Float := values.mergeSort fun x y => !(y < x)

/-- Values in ascending order. One that is no number counts as equal to every other, and so the
comparisons may contradict each other: a sort that finds them to do so breaks off with no result. -/
def ascending? (values : List Float) : Option (List Float) :=
  if values.any Float.isNaN then Sorting.stable? (fun x y => x < y) values
  else some (ascending values)

def rank (count : Nat) (fraction : Float) : Nat :=
  min ((UInt64.ofNat count).toFloat * fraction).toUInt64.toNat (count - 1)

def total (values : List Float) : Float := values.foldl (· + ·) (-0.0)

namespace Summary

def empty : Summary := ⟨0, 0.0, 0.0, 0.0, 0.0⟩

def ofAscending (values : List Float) : Summary :=
  match values with
  | [] => empty
  | _ =>
    let n := values.length
    { count := UInt64.ofNat n
      sum := total values
      p50 := values.getD (n / 2) 0.0
      p95 := values.getD (rank n 0.95) 0.0
      p99 := values.getD (rank n 0.99) 0.0 }

def encode (s : Summary) : Json.Value :=
  .object [("count", .integer s.count.toNat), ("sum", .float s.sum), ("p50", .float s.p50),
    ("p95", .float s.p95), ("p99", .float s.p99)]

def record : Json.Record Summary :=
  (((((Json.Record.pure Summary.mk).and (.required "count" (Json.word64 "u64"))).and
    (.required "sum" Json.float)).and (.required "p50" Json.float)).and
    (.required "p95" Json.float)).and (.required "p99" Json.float)

def decoder : Json.Decoder Summary := record.decoder "struct HistogramSummary"

end Summary

end SessionCourier.Metrics
