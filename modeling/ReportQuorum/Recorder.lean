import ReportQuorum.Processor

/-!
# A processor that records its calls

A recorder checks nothing and keeps every call it is given, so that one can see what an engine tells
its processor. It may be told to refuse either kind of call; what is refused is not recorded.

## Main definitions

* `Recorder`: the state of a recorder
* `Recorder.Call`: a recorded call
-/

namespace ReportQuorum

namespace Recorder

/-- A recorded call. -/
inductive Call where
  | submit (sender : Address) (report : Digest) (refSlot deadline : Word)
  | discard (sender : Address) (refSlot : Word)
deriving DecidableEq

/-- What a recorder refuses. -/
inductive Refusal where
  | submit
  | discard
deriving DecidableEq, Repr

/-- The wording of a refusal. -/
def Refusal.message : Refusal → String
  | .submit => "submit rejected"
  | .discard => "discard rejected"

instance : ToString Refusal := ⟨Refusal.message⟩

end Recorder

/-- The state of a recorder. -/
structure Recorder where
  address : Address
  version : Word
  processingSlot : Word
  rejectsSubmit : Bool := false
  rejectsDiscard : Bool := false
  /-- The calls that nobody has fetched yet, oldest first. -/
  calls : List Recorder.Call := []
deriving DecidableEq

namespace Recorder

/-- The recorder with one more call. -/
def note (r : Recorder) (call : Call) : Recorder := { r with calls := r.calls ++ [call] }

/-- The recorder after its calls have been fetched. -/
def drained (r : Recorder) : Recorder := { r with calls := [] }

instance : ReportProcessor Recorder Refusal where
  address := Recorder.address
  version := Recorder.version
  processingSlot := Recorder.processingSlot
  submit r _ sender report refSlot deadline :=
    if r.rejectsSubmit then ⟨.error .submit, r⟩
    else ⟨.ok (), r.note (.submit sender report refSlot deadline)⟩
  discard r _ sender refSlot :=
    if r.rejectsDiscard then ⟨.error .discard, r⟩ else ⟨.ok (), r.note (.discard sender refSlot)⟩

end Recorder

end ReportQuorum
