set_option autoImplicit false

namespace SessionCourier.Metrics

abbrev Label := String × String

structure Series where
  name : String
  labels : List Label
  deriving DecidableEq, Repr

def labelLe (a b : Label) : Bool := !(b.1 < a.1)

def Series.of (name : String) (labels : List Label) : Series := ⟨name, labels.mergeSort labelLe⟩

/-- Labels in the order of their names, and values within one name. -/
def labelsLe : List Label → List Label → Bool
  | [], _ => true
  | _ :: _, [] => false
  | a :: as, b :: bs =>
    if a.1 < b.1 then true
    else if b.1 < a.1 then false
    else if a.2 < b.2 then true
    else if b.2 < a.2 then false
    else labelsLe as bs

def Series.le (a b : Series) : Bool :=
  if a.name < b.name then true
  else if b.name < a.name then false
  else labelsLe a.labels b.labels

end SessionCourier.Metrics
