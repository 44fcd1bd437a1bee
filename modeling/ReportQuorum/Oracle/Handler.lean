import ReportQuorum.Oracle.Report
import ReportQuorum.Processor

/-!
# Report handlers

A handler is told when the processing of a report starts and when a report is withdrawn before that.
It may refuse either, and then the oracle does not go on.

## Main definitions

* `ReportHandler`: what an oracle asks of its handler
* `ReportLog`: a handler that keeps what it is told and refuses nothing
* `GuardedLog`: the same with a guard that may be told to refuse
-/

namespace ReportQuorum

/-- What an oracle asks of its handler. -/
class ReportHandler (η : Type) (φ : outParam Type) where
  /-- The processing of a report starts; before it, that of `previous` was the last to start. -/
  handle (h : η) (report : Oracle.Report) (previous : Word) : Reply φ η Unit
  /-- A report is withdrawn. -/
  discarded (h : η) (report : Oracle.Report) : Reply φ η Unit

/-- A handler that keeps what it is told and refuses nothing. -/
structure ReportLog where
  handled : List Oracle.Report := []
  discarded : List Oracle.Report := []
deriving DecidableEq

instance : ReportHandler ReportLog Empty where
  handle h report _ := ⟨.ok (), { h with handled := h.handled ++ [report] }⟩
  discarded h report := ⟨.ok (), { h with discarded := h.discarded ++ [report] }⟩

/-- There is no refusal to be worded. -/
instance toStringEmpty : ToString Empty := ⟨nofun⟩

namespace GuardedLog

/-- What a guard refuses. -/
inductive Refusal where
  | handle
  | discard
deriving DecidableEq, Repr

/-- The wording of a refusal. -/
def Refusal.message : Refusal → String
  | .handle => "handle refused"
  | .discard => "discard refused"

instance : ToString Refusal := ⟨Refusal.message⟩

end GuardedLog

/-- A log with a guard that may be told to refuse. What is refused is not logged. -/
structure GuardedLog where
  log : ReportLog := {}
  refusesHandle : Bool := false
  refusesDiscard : Bool := false
deriving DecidableEq

instance : ReportHandler GuardedLog GuardedLog.Refusal where
  handle h report previous :=
    if h.refusesHandle then ⟨.error .handle, h⟩
    else (ReportHandler.handle h.log report previous).map nofun ({ h with log := · })
  discarded h report :=
    if h.refusesDiscard then ⟨.error .discard, h⟩
    else (ReportHandler.discarded h.log report).map nofun ({ h with log := · })

end ReportQuorum
