import SessionCourier.Metrics.Series
import SessionCourier.Metrics.Summary

set_option autoImplicit false

/-!
# The metrics store

Counters, gauges and histograms are three independent kinds of series. A counter wraps at 2 ^ 64, a
gauge keeps the bits of its last value, a histogram all of its values. To summarise a histogram puts
its values into ascending order where they stand.
-/

namespace SessionCourier.Metrics

/-- Values by series, each series once. -/
abbrev Table (α : Type) := List (Series × α)

namespace Table

variable {α : Type}

def modify (t : Table α) (key : Series) (f : α → α) : Table α :=
  t.map fun row => (row.1, if row.1 = key then f row.2 else row.2)

def orInsert (t : Table α) (key : Series) (new : α) : Table α :=
  match t.lookup key with
  | some _ => t
  | none => t ++ [(key, new)]

/-- A value that is there is changed where it stands; otherwise it is looked for once more and put
there, since another caller may have done so in between. -/
def update (t : Table α) (key : Series) (new : α) (f : α → α) : Table α :=
  match t.lookup key with
  | some _ => t.modify key f
  | none => (t.orInsert key new).modify key f

end Table

structure Store where
  counters : Table UInt64
  /-- Floating-point values as their bits. -/
  gauges : Table UInt64
  histograms : Table (List Float)

inductive Update where
  | increment (key : Series) (n : UInt64)
  | set (key : Series) (bits : UInt64)
  | observe (key : Series) (value : Float)

namespace Store

def empty : Store := ⟨[], [], []⟩

def apply (s : Store) : Update → Store
  | .increment key n => { s with counters := s.counters.update key 0 (· + n) }
  | .set key bits => { s with gauges := s.gauges.update key 0 fun _ => bits }
  | .observe key value => { s with histograms := s.histograms.update key [] (· ++ [value]) }

def applyAll (s : Store) (updates : List Update) : Store := updates.foldl apply s

def counter (s : Store) (key : Series) : UInt64 := (s.counters.lookup key).getD 0

/-- The bits of a gauge, which are those of zero if it was never set. -/
def gauge (s : Store) (key : Series) : UInt64 := (s.gauges.lookup key).getD (0.0 : Float).toBits

def observations (s : Store) (key : Series) : List Float := (s.histograms.lookup key).getD []

def summary? (s : Store) (key : Series) : Option Summary :=
  (ascending? (s.observations key)).map .ofAscending

def sortRow? (chosen : Series → Bool) (row : Series × List Float) :
    Option (Series × List Float) :=
  if chosen row.1 then (ascending? row.2).map (row.1, ·) else some row

def sortRows? (chosen : Series → Bool) : Table (List Float) → Option (Table (List Float))
  | [] => some []
  | row :: rest => do
    let row ← sortRow? chosen row
    return row :: (← sortRows? chosen rest)

/-- The store after the chosen histograms were summarised. -/
def summarised? (s : Store) (chosen : Series → Bool) : Option Store :=
  (sortRows? chosen s.histograms).map ({ s with histograms := · })

end Store

end SessionCourier.Metrics
