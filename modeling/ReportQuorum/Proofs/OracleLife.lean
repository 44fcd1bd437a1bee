import ReportQuorum.Proofs.OracleCalls

/-!
# The life of an oracle

An oracle is made, called by its engine and by others, and its handler goes its own way. The slot it
holds is never before the slot it has marked, and only its engine makes it hold another report.

## Main definitions

* `Oracle.Performed`: what a call may do to an oracle
* `Oracle.Arises`: the oracles that there may be
* `Oracle.Tended`: what may happen to an oracle without its engine

## Main results

* `Oracle.performed`: the list is complete
* `Oracle.Arises.processingSlot_le`: the mark is not after the slot held
-/

namespace ReportQuorum.Oracle

variable {η φ : Type} {o o' : Oracle η} {now : Word}

/-- What is held and what is marked are the same. -/
structure Unmoved (o o' : Oracle η) : Prop where
  grid : o'.grid = o.grid
  processingSlot : o'.processingSlot = o.processingSlot
  report : o'.report = o.report

/-- Whether a call binds an oracle to another engine. -/
def Command.rebinds : Command → Bool
  | .setEngine .. => true
  | _ => false

/-- What a call may do to an oracle. -/
inductive Performed (o : Oracle η) (now : Word) : Command → Oracle η → Prop
  /-- The call is refused or concerns something else. -/
  | unmoved {c : Command} {o' : Oracle η} (h : o.Unmoved o')
      (hengine : c.rebinds = false → o'.engine = o.engine) : Performed o now c o'
  | taken {sender : Address} {report : Digest} {refSlot deadline : Word}
      (h : o.Accepts now sender report refSlot deadline) :
      Performed o now (.submit sender report refSlot deadline) (o.taking report refSlot deadline)
  | withdrawn {sender : Address} {refSlot : Word} {handler : η} (h : sender = o.engine)
      (unprocessed : o.processingSlot < o.report.refSlot) :
      Performed o now (.discard sender refSlot)
        ({ o with handler, report.report := Octets.zero }.emit
          (.reportDiscarded refSlot o.report.report))
  | started {handler : η} (pending : o.report.report ≠ Octets.zero) :
      Performed o now .startProcessing
        ({ o with handler, processingSlot := o.report.refSlot }.emit
          (.processingStarted o.report.refSlot o.report.report))

theorem Altered.performed {c : Command} (h : o.Altered now c o') : o.Performed now c o' := by
  cases h with
  | unmoved _ => exact .unmoved ⟨rfl, rfl, rfl⟩ fun _ => rfl
  | taken haccepts => exact .taken haccepts
  | withdrawn own slot unprocessed =>
    rw [← slot] at unprocessed ⊢
    exact .withdrawn own unprocessed
  | started pending _ => exact .started pending
  | rebound => exact .unmoved ⟨rfl, rfl, rfl⟩ fun hc => by cases hc
  | reversioned => exact .unmoved ⟨rfl, rfl, rfl⟩ fun _ => rfl
  | granted => exact .unmoved ⟨by simp, by simp, by simp⟩ fun _ => by simp
  | revoked => exact .unmoved ⟨by simp, by simp, by simp⟩ fun _ => by simp

section Handler

variable [ReportHandler η φ]

/-- A call does nothing to an oracle but what is listed. -/
theorem performed (o : Oracle η) (now : Word) (c : Command) :
    o.Performed now c (o.perform now c).state :=
  (o.altered now c).performed

/-! ### Oracles that may be -/

/-- The oracles that there may be: new ones, and those that calls and their handlers make of
them. -/
inductive Arises : Oracle η → Prop
  | created {setup : Setup} {handler : η} {o : Oracle η}
      (h : create (φ := φ) setup handler = .ok o) : Arises o
  | performed {o : Oracle η} (h : Arises o) (now : Word) (c : Command) :
      Arises (o.perform now c).state
  | handled {o : Oracle η} (h : Arises o) (handler : η) : Arises { o with handler }
  | drained {o : Oracle η} (h : Arises o) : Arises o.drained

theorem Performed.processingSlot_le {c : Command} (h : o.Performed now c o')
    (hle : o.processingSlot ≤ o.report.refSlot) : o'.processingSlot ≤ o'.report.refSlot := by
  cases h with
  | unmoved h _ =>
    rw [h.processingSlot, h.report]
    exact hle
  | taken h =>
    rw [taking_processingSlot, taking_report]
    exact UInt64.le_of_lt h.unprocessed
  | withdrawn _ _ => exact hle
  | started _ => exact UInt64.le_refl _

/-- The slot marked is not after the slot held. -/
theorem Arises.processingSlot_le (h : o.Arises) : o.processingSlot ≤ o.report.refSlot := by
  induction h with
  | created h =>
    have hcreated := created_of_create h
    rw [hcreated.processingSlot, hcreated.report]
    exact UInt64.le_refl _
  | performed _ now c ih => exact (Oracle.performed _ now c).processingSlot_le ih
  | handled _ _ ih => exact ih
  | drained _ ih => exact ih

/-! ### An oracle on its own -/

/-- Whether a call is one that anybody but an engine may make without binding the oracle to another
one. -/
def Command.isOthers (engine : Address) : Command → Bool
  | .submit sender _ _ _ => sender ≠ engine
  | .discard sender _ => sender ≠ engine
  | c => !c.rebinds

/-- What may happen to an oracle without its engine, to which it stays bound. -/
inductive Tended (now : Word) (o : Oracle η) : Oracle η → Prop
  | performed (c : Command) (hc : c.isOthers o.engine = true) : Tended now o (o.perform now c).state
  | handled (handler : η) : Tended now o { o with handler }
  | drained : Tended now o o.drained

/-- An oracle on its own holds what it held, and its mark stays or moves to the slot held. -/
structure Marks (o o' : Oracle η) : Prop where
  engine : o'.engine = o.engine
  grid : o'.grid = o.grid
  report : o'.report = o.report
  processingSlot : o'.processingSlot = o.processingSlot ∨ o'.processingSlot = o.report.refSlot

theorem Tended.marks (h : o.Tended now o') : o.Marks o' := by
  cases h with
  | performed c hc =>
    have hp := o.performed now c
    generalize (o.perform now c).state = o' at hp
    cases hp with
    | unmoved h hengine =>
      have hbound : c.rebinds = false := by
        cases c <;> simp_all [Command.isOthers, Command.rebinds]
      exact ⟨hengine hbound, h.grid, h.report, .inl h.processingSlot⟩
    | taken h => exact absurd h.sender (by simpa [Command.isOthers] using hc)
    | withdrawn h _ => exact absurd h (by simpa [Command.isOthers] using hc)
    | started _ => exact ⟨rfl, rfl, rfl, .inr rfl⟩
  | handled _ => exact ⟨rfl, rfl, rfl, .inl rfl⟩
  | drained => exact ⟨rfl, rfl, rfl, .inl rfl⟩

end Handler

end ReportQuorum.Oracle
