import ReportQuorum.Engine.Basic

/-!
# Settling the votes of a frame

After every change that may move the majority, the votes of the current frame are counted again. If
the outcome is another than the one handed on before, the processor is told: what it was given is
withdrawn first, and the new report, if there is one, is handed over after that.

## Main definitions

* `Engine.Settlement`: what the processor has to be told
* `Engine.settlement`: whether there is something to tell it
* `Engine.carryOut`: telling it
* `Engine.settle`: both
-/

namespace ReportQuorum.Engine

variable {π ε : Type}

/-- What the processor has to be told about a frame. -/
structure Settlement where
  frame : Frame
  /-- Whether the report it was given for the frame is withdrawn. -/
  withdraws : Bool
  /-- The report that reaches the quorum. -/
  winner : Option Variant
deriving DecidableEq

/-- Whether the processor has to be told something about the current frame. It is told nothing after
the frame's deadline slot, nor when it has started to process the frame's report. -/
def settlement [ReportProcessor π ε] (e : Engine π) (now : Word) :
    Except Schedule.Error (Option Settlement) :=
  match e.schedule.frameAt now with
  | .error cause => .error cause
  | .ok frame =>
    -- The processor would refuse a report this late.
    if frame.deadlineSlot < e.schedule.grid.slotAt now then .ok none
    -- What is being processed can no longer be withdrawn.
    else if ReportProcessor.isProcessing e.processor frame.refSlot then .ok none
    else
      let winner := e.tally.winner frame.refSlot e.quorum e.roster
      let agreed := e.tally.agreedFor frame.refSlot
      if winner.map (·.report) = agreed then .ok none
      else .ok (some { frame, withdraws := agreed.isSome, winner })

/-- Withdraws the report that the processor was given, if a settlement says so. -/
def withdraw [ReportProcessor π ε] (e : Engine π) (now : Word) (s : Settlement) :
    Reply (Error ε) π Unit :=
  if s.withdraws then
    (ReportProcessor.discard e.processor now e.address s.frame.refSlot).map .processor id
  else ⟨.ok (), e.processor⟩

/-- Carries out a settlement. The agreement is noted only after the processor has taken part. -/
def carryOut [ReportProcessor π ε] (e : Engine π) (now : Word) (s : Settlement) :
    Reply (Error ε) (Engine π) Unit :=
  match e.withdraw now s with
  | ⟨.error err, p⟩ => ⟨.error err, { e with processor := p }⟩
  | ⟨.ok (), p⟩ =>
    let refSlot := s.frame.refSlot
    match s.winner with
    | none =>
      ⟨.ok (), { e with processor := p, tally := e.tally.setAgreed refSlot none }.emit
        (.consensusLost refSlot)⟩
    | some v =>
      match ReportProcessor.submit p now e.address v.report refSlot
        (e.schedule.deadlineTime s.frame) with
      | ⟨.error err, p⟩ => ⟨.error (.processor err), { e with processor := p }⟩
      | ⟨.ok (), p⟩ =>
        ⟨.ok (), { e with processor := p, tally := e.tally.setAgreed refSlot v.report }.emit
          (.consensusReached refSlot v.report v.support)⟩

/-- Counts the votes of the current frame again and tells the processor if the outcome is new. -/
def settle [ReportProcessor π ε] (e : Engine π) (now : Word) : Reply (Error ε) (Engine π) Unit :=
  match e.settlement now with
  | .error cause => ⟨.error (.schedule cause), e⟩
  | .ok none => ⟨.ok (), e⟩
  | .ok (some s) => e.carryOut now s

/-- Settles the votes unless no frame has begun yet. Whether one has begun and which one is current
is seen at the same moment. -/
def settleIfActive [ReportProcessor π ε] (e : Engine π) (now : Word) :
    Reply (Error ε) (Engine π) Unit :=
  if e.schedule.isActive now then e.settle now else ⟨.ok (), e⟩

/-- What a refused call leaves behind: the engine as it was, over the processor as it is now. -/
def restoreOnError (e : Engine π) (r : Reply (Error ε) (Engine π) Unit) :
    Reply (Error ε) (Engine π) Unit :=
  match r with
  | ⟨.ok (), e'⟩ => ⟨.ok (), e'⟩
  | ⟨.error err, e'⟩ => ⟨.error err, { e with processor := e'.processor }⟩

end ReportQuorum.Engine
