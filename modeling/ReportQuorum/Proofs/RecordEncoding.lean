import ReportQuorum.Engine.Query
import ReportQuorum.Node.Config
import ReportQuorum.Oracle.Basic
import ReportQuorum.Proofs.Encoding
import ReportQuorum.Scenario

/-!
# What the digest of a record tells

The binary form of a record is that of its fields, one after the other. No field goes on as another
value of its type does: words, addresses and digests because of their width, flags and optional
values because of their first byte, lists and texts because their length comes first. Hence no form
of a record goes on as another, and records of one type have different forms and, unless the hash
function collides on these, different digests.

## Main definitions

* `PrefixFree`: types no form of which goes on as another
* `ToldApart`: values of a type are known from their forms and from their digests

## Main results

* `PrefixFree.of_fields`: a type is prefix-free if the sequence of its fields is
* `Binary.list_append_inj`: a list that can be counted is known from its form and what follows it
* `records_told_apart`: records are known from their forms and from their digests
-/

namespace ReportQuorum

/-- Types no form of which goes on as another: a value is known from its form and what follows
it. -/
class PrefixFree (α : Type) [BinaryForm α] : Prop where
  append_inj : ∀ {x y : α} {s t : List UInt8}, toBytes x ++ s = toBytes y ++ t → x = y ∧ s = t

export PrefixFree (append_inj)

/-- The fields of a record follow each other. -/
instance {α β : Type} [BinaryForm α] [BinaryForm β] : BinaryForm (α × β) :=
  ⟨fun x => toBytes x.1 ++ toBytes x.2⟩

namespace PrefixFree

variable {α β ρ : Type} [BinaryForm α] [BinaryForm β] [BinaryForm ρ]

instance : PrefixFree Word := ⟨Word.bytes_append_inj⟩

instance {n : Nat} : PrefixFree (Octets n) where
  append_inj {x y s t} h := by
    obtain ⟨hbytes, hrest⟩ := List.append_inj h (x.length_bytes.trans y.length_bytes.symm)
    exact ⟨Octets.ext hbytes, hrest⟩

instance : PrefixFree Bool where
  append_inj {x y s t} h := by
    obtain ⟨hflag, hrest⟩ := List.append_inj h rfl
    refine ⟨?_, hrest⟩
    cases x <;> cases y <;> first | rfl | cases hflag

instance [PrefixFree α] : PrefixFree (Option α) where
  append_inj {x y s t} h := by
    -- The first byte says whether the value is there.
    cases x with
    | none =>
      cases y with
      | none => exact ⟨rfl, (List.cons.inj h).2⟩
      | some y => cases (List.cons.inj h).1
    | some x =>
      cases y with
      | none => cases (List.cons.inj h).1
      | some y =>
        obtain ⟨rfl, hrest⟩ := append_inj (List.cons.inj h).2
        exact ⟨rfl, hrest⟩

instance [PrefixFree α] [PrefixFree β] : PrefixFree (α × β) where
  append_inj {x y s t} h := by
    change (toBytes x.1 ++ toBytes x.2) ++ s = (toBytes y.1 ++ toBytes y.2) ++ t at h
    rw [List.append_assoc, List.append_assoc] at h
    obtain ⟨hfirst, h⟩ := append_inj h
    obtain ⟨hsecond, hrest⟩ := append_inj h
    exact ⟨Prod.ext hfirst hsecond, hrest⟩

/-- A type is prefix-free if its values are known from their fields and have the form of these. -/
theorem of_fields [PrefixFree α] (fields : ρ → α) (hinj : Function.Injective fields)
    (hbytes : ∀ x, toBytes x = toBytes (fields x)) : PrefixFree ρ where
  append_inj {x y s t} h := by
    rw [hbytes, hbytes] at h
    obtain ⟨hfields, hrest⟩ := append_inj h
    exact ⟨hinj hfields, hrest⟩

end PrefixFree

/-! ### Lists -/

/-- Equally many items are known from their forms and what follows them. -/
theorem Binary.items_append_inj {α : Type} [BinaryForm α] [PrefixFree α] {xs ys : List α}
    {s t : List UInt8} (hlength : xs.length = ys.length)
    (h : xs.flatMap toBytes ++ s = ys.flatMap toBytes ++ t) : xs = ys ∧ s = t := by
  induction xs generalizing ys with
  | nil =>
    obtain rfl := List.eq_nil_of_length_eq_zero hlength.symm
    exact ⟨rfl, h⟩
  | cons x xs ih =>
    obtain ⟨y, ys, rfl⟩ := List.exists_cons_of_length_eq_add_one hlength.symm
    rw [List.flatMap_cons, List.flatMap_cons, List.append_assoc, List.append_assoc] at h
    obtain ⟨rfl, htail⟩ := append_inj h
    obtain ⟨rfl, hrest⟩ := ih (Nat.succ.inj hlength) htail
    exact ⟨rfl, hrest⟩

/-- A list that can be counted by a word is known from its form and what follows it. -/
theorem Binary.list_append_inj {α : Type} [BinaryForm α] [PrefixFree α] {xs ys : List α}
    {s t : List UInt8} (hx : xs.length < UInt64.size) (hy : ys.length < UInt64.size)
    (h : toBytes xs ++ s = toBytes ys ++ t) : xs = ys ∧ s = t := by
  change (lengthBytes xs ++ _) ++ s = (lengthBytes ys ++ _) ++ t at h
  rw [List.append_assoc, List.append_assoc] at h
  obtain ⟨hlength, hitems⟩ := lengthBytes_append_inj hx hy h
  exact items_append_inj hlength hitems

/-! ### Records -/

instance : PrefixFree TimeGrid :=
  .of_fields (fun g => (g.slotsPerEpoch, g.secondsPerSlot, g.genesisTime))
    (by rintro ⟨⟩ ⟨⟩ ⟨⟩; rfl) fun g => by simp [toBytes]

instance : PrefixFree FrameLayout :=
  .of_fields (fun l => (l.initialEpoch, l.epochsPerFrame, l.fastLaneSlots))
    (by rintro ⟨⟩ ⟨⟩ ⟨⟩; rfl) fun l => by simp [toBytes]

instance : PrefixFree Frame :=
  .of_fields (fun f => (f.index, f.refSlot, f.deadlineSlot))
    (by rintro ⟨⟩ ⟨⟩ ⟨⟩; rfl) fun f => by simp [toBytes]

instance : PrefixFree Engine.MemberView :=
  .of_fields
    (fun v => (v.refSlot, v.report, v.isMember, v.isFastLane, v.canReport, v.lastRefSlot,
      v.memberReport))
    (by rintro ⟨⟩ ⟨⟩ ⟨⟩; rfl) fun v => by simp [toBytes]

instance : PrefixFree Engine.Setup :=
  .of_fields (fun s => (s.address, s.grid, s.epochsPerFrame, s.fastLaneSlots, s.admin))
    (by rintro ⟨⟩ ⟨⟩ ⟨⟩; rfl) fun s => by simp [toBytes]

instance : PrefixFree Oracle.Setup :=
  .of_fields
    (fun s => (s.address, s.engine, s.grid, s.version, s.processingSlot, s.admin))
    (by rintro ⟨⟩ ⟨⟩ ⟨⟩; rfl) fun s => by simp [toBytes]

instance : PrefixFree Oracle.ReportStatus :=
  .of_fields (fun r => (r.report, r.refSlot, r.deadline, r.isProcessing))
    (by rintro ⟨⟩ ⟨⟩ ⟨⟩; rfl) fun r => by simp [toBytes]

namespace Scenario.Step

/-- The form of the fields of a step, which comes after that of its action. -/
def fieldBytes : Step → List UInt8
  | .setTime time => toBytes time
  | .advanceTime seconds => toBytes seconds
  | .advanceSlots slots => toBytes slots
  | .submitReport member report refSlot version => toBytes (member, report, refSlot, version)
  | .addMember member quorum => toBytes (member, quorum)
  | .removeMember member quorum => toBytes (member, quorum)
  | .setQuorum quorum => toBytes quorum
  | .disableConsensus => []
  | .setFrameConfig epochs slots => toBytes (epochs, slots)
  | .startProcessing => []

theorem toBytes_eq (step : Step) : toBytes step = toBytes step.action ++ step.fieldBytes := by
  cases step <;> simp [toBytes, fieldBytes]

theorem length_action_lt (step : Step) : (Text.utf8 step.action).length < UInt64.size := by
  cases step <;> simp only [action] <;> decide

/-- Among steps of one action, a step is known from the form of its fields. -/
theorem fieldBytes_append_inj {x y : Step} {s t : List UInt8} (haction : x.action = y.action)
    (h : x.fieldBytes ++ s = y.fieldBytes ++ t) : x = y ∧ s = t := by
  cases x <;> cases y <;> simp only [action, String.reduceEq] at haction
  case disableConsensus.disableConsensus => exact ⟨rfl, h⟩
  case startProcessing.startProcessing => exact ⟨rfl, h⟩
  all_goals
    obtain ⟨hfields, hrest⟩ := append_inj h
    cases hfields
    exact ⟨rfl, hrest⟩

instance : PrefixFree Step where
  append_inj {x y s t} h := by
    rw [toBytes_eq, toBytes_eq, List.append_assoc, List.append_assoc] at h
    obtain ⟨haction, hfields⟩ :=
      Binary.textBytes_append_inj x.length_action_lt y.length_action_lt h
    exact fieldBytes_append_inj haction hfields

end Scenario.Step

/-- A configuration whose members can be counted is known from its form and what follows it. -/
theorem Node.Config.append_inj {x y : Config} {s t : List UInt8}
    (hx : x.members.length < UInt64.size) (hy : y.members.length < UInt64.size)
    (h : toBytes x ++ s = toBytes y ++ t) : x = y ∧ s = t := by
  -- The fields before the members are taken together; the quorum comes after them.
  let before (c : Config) :=
    (c.grid, c.epochsPerFrame, c.fastLaneSlots, c.initialEpoch, c.version, c.admin, c.engine,
      c.oracle)
  have hbytes : ∀ c : Config,
      toBytes c = toBytes (before c) ++ (toBytes c.members ++ toBytes c.quorum) := fun c => by
    simp [before, toBytes]
  rw [hbytes, hbytes, List.append_assoc, List.append_assoc, List.append_assoc,
    List.append_assoc] at h
  obtain ⟨hbefore, h⟩ := PrefixFree.append_inj h
  obtain ⟨hmembers, h⟩ := Binary.list_append_inj hx hy h
  obtain ⟨hquorum, hrest⟩ := PrefixFree.append_inj h
  refine ⟨?_, hrest⟩
  cases x
  cases y
  cases hbefore
  cases hmembers
  cases hquorum
  rfl

/-- A script whose steps can be counted is known from its form and what follows it. -/
theorem Scenario.append_inj {x y : Scenario} {s t : List UInt8}
    (hx : x.steps.length < UInt64.size) (hy : y.steps.length < UInt64.size)
    (h : toBytes x ++ s = toBytes y ++ t) : x = y ∧ s = t := by
  obtain ⟨startTime, steps⟩ := x
  obtain ⟨startTime', steps'⟩ := y
  change (toBytes startTime ++ toBytes steps) ++ s =
    (toBytes startTime' ++ toBytes steps') ++ t at h
  rw [List.append_assoc, List.append_assoc] at h
  obtain ⟨rfl, hlist⟩ := PrefixFree.append_inj h
  have hsteps : steps.length < UInt64.size := hx
  have hsteps' : steps'.length < UInt64.size := hy
  obtain ⟨rfl, hrest⟩ := Binary.list_append_inj hsteps hsteps' hlist
  exact ⟨rfl, hrest⟩

/-! ### Forms and digests -/

/-- The values of a type that meet a condition are known from their forms, whatever follows these,
and from their digests unless the hash function collides on the forms. -/
def ToldApart (α : Type) [BinaryForm α] (P : α → Prop) : Prop :=
  ∀ x y : α, P x → P y →
    (∀ s t, toBytes x ++ s = toBytes y ++ t → x = y ∧ s = t) ∧
      (x ≠ y → (Blake3.hash (toBytes x) = Blake3.hash (toBytes y) → toBytes x = toBytes y) →
        digest x ≠ digest y)

theorem ToldApart.of_append_inj {α : Type} [BinaryForm α] {P : α → Prop}
    (h : ∀ {x y : α} {s t}, P x → P y → toBytes x ++ s = toBytes y ++ t → x = y ∧ s = t) :
    ToldApart α P := by
  intro x y hx hy
  refine ⟨fun s t => h hx hy, fun hne collisionFree hdigest => hne ?_⟩
  refine (h (s := []) (t := []) hx hy ?_).1
  rw [collisionFree hdigest]

/-- Configurations and scripts whose members and steps can be counted by a word, frames and their
layouts, what members are told of the agreement, what engines and oracles are made from, and what an
oracle tells of its report: two values of one of these types are known from their forms, no form
goes on as another, and different values have different digests unless the hash function collides
on their forms. -/
theorem records_told_apart :
    ToldApart Node.Config (fun c => c.members.length < UInt64.size) ∧
      ToldApart Scenario (fun s => s.steps.length < UInt64.size) ∧
      ToldApart Frame (fun _ => True) ∧ ToldApart FrameLayout (fun _ => True) ∧
      ToldApart Engine.MemberView (fun _ => True) ∧ ToldApart Engine.Setup (fun _ => True) ∧
      ToldApart Oracle.Setup (fun _ => True) ∧ ToldApart Oracle.ReportStatus (fun _ => True) :=
  ⟨.of_append_inj Node.Config.append_inj, .of_append_inj Scenario.append_inj,
    .of_append_inj fun _ _ => append_inj, .of_append_inj fun _ _ => append_inj,
    .of_append_inj fun _ _ => append_inj, .of_append_inj fun _ _ => append_inj,
    .of_append_inj fun _ _ => append_inj, .of_append_inj fun _ _ => append_inj⟩

/-- The version that a vote leaves out is not taken for the step that follows it, nor the other way
round, though both forms have the same beginning. -/
theorem scripts_told_apart :
    let member : Address := .ofLowByte 1
    let report : Digest := Octets.replicate 32 7
    let x : Scenario := ⟨none, [.submitReport member report none none, .setTime 1]⟩
    let y : Scenario := ⟨none, [.submitReport member report none (some 1), .startProcessing]⟩
    x.steps.length < UInt64.size ∧ y.steps.length < UInt64.size ∧ x ≠ y ∧
      (toBytes x).take 83 = (toBytes y).take 83 ∧ ∀ s t, toBytes x ++ s ≠ toBytes y ++ t := by
  intro member report x y
  have hx : x.steps.length < UInt64.size := by decide
  have hy : y.steps.length < UInt64.size := by decide
  have hne : x ≠ y := by decide
  obtain ⟨-, hscripts, -⟩ := records_told_apart
  exact ⟨hx, hy, hne, by decide, fun s t h => hne ((hscripts x y hx hy).1 s t h).1⟩

end ReportQuorum
