import ReportQuorum.Octets
import ReportQuorum.Word

/-!
# Report processors

A report that has been agreed on is handed to a processor, and is withdrawn if the agreement is lost
before its processing has started. An engine knows its processor by what is stated here, and a
processor knows the engine by its address.

## Main definitions

* `Reply`: what a call answers and the state it leaves
* `ReportProcessor`: what an engine asks of its processor
-/

namespace ReportQuorum

/-- What a call answers and the state it leaves. A call that is refused may leave another state than
it found. -/
structure Reply (ε σ α : Type) where
  result : Except ε α
  state : σ

namespace Reply

variable {ε ε' σ τ α : Type}

/-- Rewords the answer's refusal and wraps the state. -/
def map (refusal : ε → ε') (wrap : σ → τ) (r : Reply ε σ α) : Reply ε' τ α :=
  ⟨r.result.mapError refusal, wrap r.state⟩

/-- The reply to a change that is either refused without effect or made. -/
def ofExcept (s : σ) : Except ε σ → Reply ε σ Unit
  | .error e => ⟨.error e, s⟩
  | .ok s' => ⟨.ok (), s'⟩

end Reply

/-- What an engine asks of its processor. The processor may look at the clock when it is called. -/
class ReportProcessor (π : Type) (ε : outParam Type) where
  /-- The name of the processor. -/
  address : π → Address
  /-- The version that votes have to quote. -/
  version : π → Word
  /-- The greatest reference slot whose processing has started. -/
  processingSlot : π → Word
  /-- Whether the processing of a reference slot, or of a later one, has started. -/
  isProcessing : π → Word → Bool := fun p refSlot => refSlot ≤ processingSlot p
  /-- Hands over a report that is to be processed before a deadline. -/
  submit (p : π) (now : Word) (sender : Address) (report : Digest) (refSlot deadline : Word) :
    Reply ε π Unit
  /-- Withdraws the report of a reference slot. -/
  discard (p : π) (now : Word) (sender : Address) (refSlot : Word) : Reply ε π Unit

open ReportProcessor in
/-- A processor of one of two kinds. -/
instance {π₁ π₂ ε₁ ε₂ : Type} [ReportProcessor π₁ ε₁] [ReportProcessor π₂ ε₂] :
    ReportProcessor (π₁ ⊕ π₂) (ε₁ ⊕ ε₂) where
  address
    | .inl p => address p
    | .inr p => address p
  version
    | .inl p => version p
    | .inr p => version p
  processingSlot
    | .inl p => processingSlot p
    | .inr p => processingSlot p
  isProcessing
    | .inl p => isProcessing p
    | .inr p => isProcessing p
  submit p now sender report refSlot deadline :=
    match p with
    | .inl p => (submit p now sender report refSlot deadline).map .inl .inl
    | .inr p => (submit p now sender report refSlot deadline).map .inr .inr
  discard p now sender refSlot :=
    match p with
    | .inl p => (discard p now sender refSlot).map .inl .inl
    | .inr p => (discard p now sender refSlot).map .inr .inr

end ReportQuorum
