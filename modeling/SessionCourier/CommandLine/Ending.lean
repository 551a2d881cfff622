import SessionCourier.CommandLine.Complaint
import SessionCourier.CommandLine.Usage
import SessionCourier.Delivery.Pool.Step
import SessionCourier.Metrics.Snapshot
import SessionCourier.Text.Blank

set_option autoImplicit false

namespace SessionCourier.CommandLine

structure Ending where
  code : UInt32
  printed : List String
  complaints : List String
  advice : List String
  deriving DecidableEq, Repr

namespace Ending

def complaintLines (e : Ending) : List String :=
  (e.complaints.flatMap Text.lines).filter fun line => !Text.isBlankText line

def done : Ending := ⟨0, [], [], []⟩

def usageAdvice : List String := ["", "For more information, try '--help'."]

def ofUsage (e : UsageError) : Ending :=
  match e with
  | .help page => ⟨e.exitCode, Help.lines page, [], []⟩
  | .nothing => ⟨e.exitCode, [], [e.message], (Help.lines .top).drop 1⟩
  | _ => ⟨e.exitCode, [], e.message :: e.hints, usageAdvice⟩

def ofComplaint (c : Complaint) : Ending := ⟨1, [], c.lines, []⟩

def ofStartFailure (f : Pool.StartFailure) : Ending := ofComplaint ⟨f.message, []⟩

def ofMetrics (s : Metrics.Store) : Ending :=
  match s.snapshot? with
  | some entries => ⟨0, [(Metrics.encodeSnapshot entries).pretty], [], []⟩
  | none =>
    ⟨101, [], ["user-provided comparison function does not correctly implement a total order"], []⟩

end Ending

end SessionCourier.CommandLine
