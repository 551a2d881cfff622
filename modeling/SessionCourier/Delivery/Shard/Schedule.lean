import SessionCourier.Delivery.Shard.Step

set_option autoImplicit false

namespace SessionCourier.Shard

/-- The next move, and the moment for it. -/
def due? (s : Shard) (clock interval : Nat) (cancelled : Bool) : Option (Nat × Move) :=
  match s.stage with
  | .unstarted => some (clock, .start)
  | .parked since handed =>
    if cancelled then some (clock, .stop)
    else if handed then some (clock, .wake)
    else some (since + interval, .poll)
  | .ready (.drain []) => some (clock, .survey (s.live.map (·.2)))
  | .ready (.finalDrain []) => some (clock, .sweep (s.live.map (·.1)))
  | .ready _ => some (clock, .proceed)
  | .busy .. | .escalating .. | .stopped => none

/-- A pass would find nothing to do. -/
def isIdle (s : Shard) : Bool := s.pending = 0 && s.deletions.isEmpty && !s.permit

end SessionCourier.Shard
