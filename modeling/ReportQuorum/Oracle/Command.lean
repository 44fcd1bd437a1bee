import ReportQuorum.Oracle.Basic

/-!
# Calls of an oracle as data

## Main definitions

* `Oracle.Command`: a call
* `Oracle.perform`: the reply to a call
-/

namespace ReportQuorum.Oracle

variable {η φ : Type}

/-- A call of an oracle. -/
inductive Command where
  | submit (sender : Address) (report : Digest) (refSlot deadline : Word)
  | discard (sender : Address) (refSlot : Word)
  | startProcessing
  | setEngine (caller engine : Address) (grid : TimeGrid) (initialRefSlot : Word)
  | setVersion (caller : Address) (version : Word)
  | grantRole (caller : Address) (role : Role) (account : Address)
  | revokeRole (caller : Address) (role : Role) (account : Address)

/-- The reply to a call, all of which happens at one moment of the clock. The answer is that of
starting to process, if the call does. -/
def perform [ReportHandler η φ] (o : Oracle η) (now : Word) :
    Command → Reply (Error φ) (Oracle η) (Option Word)
  | .submit sender report refSlot deadline =>
    answerNone (o.submit now sender report refSlot deadline)
  | .discard sender refSlot => answerNone (o.discard sender refSlot)
  | .startProcessing =>
    let r := o.startProcessing now
    ⟨r.result.map some, r.state⟩
  | .setEngine caller engine grid initialRefSlot =>
    answerNone (o.setEngine caller engine grid initialRefSlot)
  | .setVersion caller version => answerNone (o.setVersion caller version)
  | .grantRole caller role account => answerNone (o.grantRole caller role account)
  | .revokeRole caller role account => answerNone (o.revokeRole caller role account)
where
  /-- The reply to a call that answers nothing. -/
  answerNone (r : Reply (Error φ) (Oracle η) Unit) : Reply (Error φ) (Oracle η) (Option Word) :=
    ⟨r.result.map fun () => none, r.state⟩

end ReportQuorum.Oracle
