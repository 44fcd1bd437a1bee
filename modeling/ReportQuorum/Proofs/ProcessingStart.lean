import ReportQuorum.Proofs.PendingReports

/-!
# What may be started, and when

The oracle of a node keeps the deadline that it was given with a report, and looks neither at the
frames nor at the votes when it starts to process. On a clock that does not go back that is as good
as looking, unless the layout of frames is changed while the report waits: a shorter frame may end
before the report's deadline, and a longer one has another deadline than the report.

## Main definitions

* `Simulation.CutsOff`: a change of the layout shortens the frame of a report that waits
* `Simulation.Redates`: a change of the layout moves the deadline of the frame of such a report

## Main results

* `Simulation.backed_or_cut_off`: a report that is started has the votes it needs for the current
  reference slot, or its frame was shortened
* `Simulation.startable_or_redated`: the report that is told as agreed can be started until the
  deadline, or the deadline was moved
-/

namespace ReportQuorum

namespace Engine

variable {η φ : Type} [ReportHandler η φ] {e : Engine (Oracle η)} {now : Word} {f : Frame}

/-- The frame of a report that waits is open until its deadline. -/
theorem open_of_awaits (hf : e.schedule.frameAt now = .ok f) (h : e.processor.Awaits)
    (hslot : f.refSlot = e.processor.report.refSlot)
    (htimely : e.schedule.grid.slotAt now ≤ f.deadlineSlot) : e.Open now f := by
  refine ⟨hf, htimely, decide_eq_false (UInt64.not_le.mpr ?_)⟩
  rw [hslot]
  exact h.unmarked

/-- What the oracle holds in an open frame has as many votes as the quorum demands. -/
theorem UpToDate.backed (h : e.UpToDate now) (hopen : e.Open now f) (hawaits : e.processor.Awaits)
    (hslot : f.refSlot = e.processor.report.refSlot) :
    e.quorum.toNat ≤
      e.roster.votesFor ⟨e.processor.report.refSlot, e.processor.report.report⟩ := by
  have hheld := hawaits.held
  rw [← hslot] at hheld ⊢
  obtain ⟨v, hwinner, hreport⟩ := Option.map_eq_some_iff.mp ((h.held_iff_winner hopen).mp hheld)
  obtain ⟨-, hsupport, -, hquorum⟩ := Tally.exists_of_winner hwinner
  rw [hreport] at hsupport
  rw [hsupport, UInt64.le_iff_toNat_le] at hquorum
  exact Nat.le_trans hquorum (Roster.toNat_support_le ..)

/-- What is told as agreed in an open frame waits in the oracle. -/
theorem UpToDate.awaits_of_agreed (h : e.UpToDate now) (hopen : e.Open now f)
    (hagreed : e.leadingReport f ≠ Octets.zero) :
    e.processor.report.refSlot = f.refSlot ∧ e.processor.report.report = e.leadingReport f ∧
      e.processor.Awaits := by
  rw [leadingReport_eq_getD] at hagreed ⊢
  cases hwinner : (e.winnerFor f.refSlot).map (·.report) with
  | none =>
    rw [hwinner] at hagreed
    exact absurd rfl hagreed
  | some d =>
    have hheld := (h.held_iff_winner hopen).mpr hwinner
    obtain ⟨hslot, hreport, hpending⟩ := Oracle.held_eq_some.mp hheld
    have hunmarked : ¬ f.refSlot ≤ e.processor.processingSlot := of_decide_eq_false hopen.unlocked
    refine ⟨hslot, hreport, ?_, ?_⟩
    · rwa [hreport]
    · rw [hslot]
      exact UInt64.not_le.mp hunmarked

/-- Where something waits frames have begun, and the current slot is not before that of the
report. -/
theorem UpToDate.current_of_awaits (h : e.UpToDate now) (hawaits : e.processor.Awaits) :
    ∃ f, e.schedule.frameAt now = .ok f ∧ e.processor.report.refSlot ≤ f.refSlot := by
  have hvoted := h.voted hawaits
  have hpos : 0 < e.tally.refSlot :=
    UInt64.lt_of_le_of_lt (UInt64.zero_le ..) (UInt64.lt_of_lt_of_le hawaits.unmarked hvoted)
  obtain ⟨f, hf, -⟩ := h.listed.reached 0 hpos
  exact ⟨f, hf, UInt64.le_trans hvoted (h.listed.le_current hf)⟩

end Engine

namespace Simulation

open Scenario (Step)

variable {s : State} {step : Step} {steps : List Step} {c : Node.Config} {now : Word} {n : Node}

/-! ### Reports that are cut off -/

/-- The frame of the report that the oracle holds is the current one, and the deadline of the report
is within it. -/
def Paced (s : State) : Prop :=
  ∃ f, s.node.engine.schedule.frameAt s.now = .ok f ∧
    f.refSlot = s.node.oracle.report.refSlot ∧
    s.node.engine.schedule.grid.slotAt s.node.oracle.report.deadline ≤ f.deadlineSlot

/-- The deadline of the report that the oracle holds has passed. -/
def Lapsed (s : State) : Prop :=
  s.node.engine.schedule.grid.slotAt s.node.oracle.report.deadline <
    s.node.engine.schedule.grid.slotAt s.now

/-- A change of the layout shortens the frame of the report that the oracle holds. The report has
the votes it needs when that happens. -/
structure CutsOff (report : Oracle.Report) (s : State) (step : Step) : Prop
    extends Replans s step where
  held : s.node.oracle.report = report
  paced : Paced s
  backed : s.node.engine.quorum.toNat ≤
    s.node.engine.roster.votesFor ⟨report.refSlot, report.report⟩
  /-- The frame is over at once, or it ends before the deadline of the report. -/
  shortened : ∃ f, (s.next step).node.engine.schedule.frameAt (s.next step).now = .ok f ∧
    (report.refSlot < f.refSlot ∨
      f.deadlineSlot < s.node.engine.schedule.grid.slotAt report.deadline)

theorem paced_of_justHanded (h : JustHanded s) : Paced s := by
  obtain ⟨f, hf, hslot, hdeadline⟩ := h
  refine ⟨f, hf, hslot.symm, ?_⟩
  rw [hdeadline]
  exact TimeGrid.slotAt_timeOfSlot_le _ _

/-- A report whose frame is current stays so, or its deadline passes, or its frame is shortened. -/
theorem Spares.of_paced (hspares : Spares s step) (h : s.node.engine.UpToDate s.now)
    (hnow : s.now ≤ (s.next step).now) (hpaced : Paced s) (htimely : ¬ Lapsed s) :
    (Paced (s.next step) ∨ Lapsed (s.next step)) ∨ CutsOff s.node.oracle.report s step := by
  obtain ⟨f, hf, hslot, hwithin⟩ := hpaced
  rw [Lapsed, UInt64.not_lt] at htimely
  obtain hschedule | hreplans := hspares.frames
  · -- The schedule is the same, and the frame lasts until the deadline.
    left
    by_cases hlapsed : Lapsed (s.next step)
    · exact .inr hlapsed
    · left
      rw [Lapsed, UInt64.not_lt, hschedule, hspares.report] at hlapsed
      rw [Paced, hschedule, hspares.report]
      refine ⟨f, ?_, hslot, hwithin⟩
      exact Schedule.frameAt_of_le_deadlineSlot h.valid hf hnow (UInt64.le_trans hlapsed hwithin)
  · -- The frames are laid out anew: is the frame of the report among them, and as long as before?
    obtain ⟨epochs, slots, change, -, hs⟩ := hreplans.layout
    obtain ⟨f', hf'⟩ := Schedule.exists_frameAt (Schedule.isActive_of_reconfigure hs)
    have hle := Schedule.refSlot_le_of_reconfigure hs hf hf'
    rw [← hreplans.still] at hf'
    by_cases hsame : f'.refSlot = s.node.oracle.report.refSlot ∧
        s.node.engine.schedule.grid.slotAt s.node.oracle.report.deadline ≤ f'.deadlineSlot
    · refine .inl (.inl ⟨f', hf', ?_⟩)
      rw [hspares.report, (Schedule.reconfigure_eq_ok hs).2.1]
      exact hsame
    · have hopen :=
        Engine.open_of_awaits hf hspares.awaits hslot (UInt64.le_trans htimely hwithin)
      refine .inr ⟨hreplans, rfl, ⟨f, hf, hslot, hwithin⟩, h.backed hopen hspares.awaits hslot, f',
        hf', ?_⟩
      obtain hlt | heq := UInt64.le_iff_lt_or_eq.mp hle
      · exact .inl (hslot ▸ hlt)
      · exact .inr (UInt64.not_le.mp fun hwithin' => hsame ⟨heq.symm.trans hslot, hwithin'⟩)

/-- What has lapsed stays so while it is held. -/
theorem Spares.of_lapsed (hspares : Spares s step) (hnow : s.now ≤ (s.next step).now)
    (hlapsed : Lapsed s) : Lapsed (s.next step) := by
  rw [Lapsed, hspares.grid, hspares.report]
  exact UInt64.lt_of_lt_of_le hlapsed (TimeGrid.slotAt_mono hnow)

/-- While a report waits, its frame is the current one, or its deadline has passed, or its frame was
shortened. -/
theorem paced_or_cut_off (h : s.node.engine.UpToDate s.now) (hnew : ¬ s.node.oracle.Awaits)
    (hforward : s.Forward steps) (hawaits : (s.after steps).node.oracle.Awaits) :
    (Paced (s.after steps) ∨ Lapsed (s.after steps)) ∨
      Amid s steps (CutsOff (s.after steps).node.oracle.report) := by
  refine holds_or_amid (I := fun s => Paced s ∨ Lapsed s) ?_ ?_ h hnew hforward hawaits
  · exact fun s hhanded => .inl (paced_of_justHanded hhanded)
  · intro s step h hnow hspares hpace
    by_cases hlapsed : Lapsed s
    · exact .inl (.inr (hspares.of_lapsed hnow hlapsed))
    · exact hspares.of_paced h hnow (hpace.resolve_right hlapsed) hlapsed

/-- The deadline of a report that waits is not in the last slot of all. -/
theorem deadline_lt_last (h : s.node.engine.UpToDate s.now) (hnew : ¬ s.node.oracle.Awaits)
    (hforward : s.Forward steps) (hawaits : (s.after steps).node.oracle.Awaits) :
    (s.after steps).node.engine.schedule.grid.slotAt (s.after steps).node.oracle.report.deadline <
      Word.last := by
  have hholds := holds_or_amid
    (I := fun s => s.node.engine.schedule.grid.slotAt s.node.oracle.report.deadline < Word.last)
    (P := fun _ _ _ => False) ?_ ?_ h hnew hforward hawaits
  · obtain hlast | ⟨_, _, _, -, hfalse⟩ := hholds
    · exact hlast
    · exact hfalse.elim
  · rintro s ⟨f, hf, -, hdeadline⟩
    rw [hdeadline]
    exact UInt64.lt_of_le_of_lt (TimeGrid.slotAt_timeOfSlot_le _ _)
      (Schedule.deadlineSlot_lt_last hf)
  · intro s step _ _ hspares hlast
    left
    rw [hspares.grid, hspares.report]
    exact hlast

/-- The state of a new node at the beginning of a play. -/
theorem upToDate_start (h : Node.create c now = .ok n) :
    (Progress.start now n).state.node.engine.UpToDate (Progress.start now n).state.now ∧
      ¬ (Progress.start now n).state.node.oracle.Awaits := by
  refine ⟨upToDate_drained (Node.upToDate_of_create h), fun hawaits => ?_⟩
  exact Node.not_awaits_of_create h ⟨hawaits.pending, hawaits.unmarked⟩

/-- Whenever in a play on a clock that does not go back the oracle starts to process a report,
either the report is for the current reference slot and has as many votes as the quorum demands, or
the frames have passed its slot and its frame was shortened while it waited with the votes it
needed. While agreement is disabled only the latter can be. -/
theorem backed_or_cut_off (h : Node.create c now = .ok n)
    (hforward : (Progress.start now n).state.Forward steps) :
    let s := ((Progress.start now n).play 0 steps).state
    let report := s.node.oracle.report
    (apply s .startProcessing).result = .ok () →
      ∃ f, s.node.engine.schedule.frameAt s.now = .ok f ∧
        (f.refSlot = report.refSlot ∧
            s.node.engine.quorum.toNat ≤
              s.node.engine.roster.votesFor ⟨report.refSlot, report.report⟩ ∨
          report.refSlot < f.refSlot ∧
            Amid (Progress.start now n).state steps (CutsOff report)) ∧
        (s.node.engine.quorum = Quorum.unreachable →
          s.node.engine.roster.size < UInt64.size - 1 → report.refSlot < f.refSlot) := by
  intro s report hstart
  have hs : s = (Progress.start now n).state.after steps := play_state _ 0 steps
  obtain ⟨h₀, hnew⟩ := upToDate_start h
  have hupToDate : s.node.engine.UpToDate s.now := upToDate_play h hforward
  obtain ⟨hawaits, htimely⟩ := (start_accepted_iff hupToDate).mp hstart
  obtain ⟨f, hf, hle⟩ := hupToDate.current_of_awaits hawaits
  have hpace := paced_or_cut_off h₀ hnew hforward (hs ▸ hawaits)
  have hlast := deadline_lt_last h₀ hnew hforward (hs ▸ hawaits)
  rw [← hs] at hpace hlast
  by_cases hslot : f.refSlot = report.refSlot
  · -- The deadline of the report has not passed, so its frame is still open.
    have hopen : s.node.engine.Open s.now f := by
      refine Engine.open_of_awaits hf hawaits hslot ?_
      rw [Schedule.slotAt_le_deadlineSlot_iff hupToDate.valid hf]
      exact UInt64.lt_of_le_of_lt htimely hlast
    have hbacked := hupToDate.backed hopen hawaits hslot
    refine ⟨f, hf, .inl ⟨hslot, hbacked⟩, fun hquorum hsize => ?_⟩
    rw [hquorum] at hbacked
    exact absurd hbacked (Nat.not_le.mpr (Engine.votesFor_lt_unreachable hsize _))
  · -- Time alone would have let the deadline pass before the frame.
    have hlt : report.refSlot < f.refSlot :=
      UInt64.lt_of_le_of_ne hle fun heq => hslot heq.symm
    refine ⟨f, hf, .inr ⟨hlt, ?_⟩, fun _ _ => hlt⟩
    obtain (⟨f', hf', hcurrent, -⟩ | hlapsed) | hcutOff := hpace
    · rw [Except.ok.inj (hf.symm.trans hf')] at hslot
      exact absurd hcurrent hslot
    · exact absurd htimely (UInt64.not_le.mpr hlapsed)
    · exact hcutOff

/-- What two of three members name can be started as what they agree on. -/
theorem backed_after_two_votes :
    let member (i : Nat) : Address := .ofLowByte (.ofNat (i + 1))
    let c := Node.Config.sample member 3
    let report := Octets.replicate 32 7
    let steps : List Step :=
      [.submitReport (member 0) report none none, .advanceSlots 5,
        .submitReport (member 2) report none none, .advanceSlots 5]
    ∃ n, Node.create c c.startTime = .ok n ∧
      (Progress.start c.startTime n).state.Forward steps ∧
      let s := ((Progress.start c.startTime n).play 0 steps).state
      (apply s .startProcessing).result = .ok () ∧
        s.node.engine.quorum.toNat ≤ s.node.engine.roster.votesFor ⟨31, report⟩ := by
  intro member c report steps
  let final (n : Node) : State := ((Progress.start c.startTime n).play 0 steps).state
  have hplay : (Node.create c c.startTime).toOption.any (fun n => decide (
      (Progress.start c.startTime n).state.Forward steps ∧
        (apply (final n) .startProcessing).result.toOption = some () ∧
        ((final n).node.engine.schedule.frameAt (final n).now).toOption = some ⟨0, 31, 7231⟩ ∧
        (final n).node.oracle.report.refSlot = 31 ∧
        (final n).node.oracle.report.report = report)) = true := by
    decide +kernel
  obtain ⟨n, hmade, hforward, hstart, hf, hslot, hreport⟩ := exists_of_any hplay
  rw [toOption_eq_some] at hstart hf
  refine ⟨n, hmade, hforward, hstart, ?_⟩
  obtain ⟨f, hf', ⟨-, hbacked⟩ | ⟨hpassed, -⟩, -⟩ := backed_or_cut_off hmade hforward hstart
  · rwa [hslot, hreport] at hbacked
  · -- The frame of the report is still the current one.
    rw [Except.ok.inj (hf'.symm.trans hf), hslot] at hpassed
    exact absurd hpassed (by decide)

/-- After the frame has been shortened and agreement disabled, the report of the shortened frame is
started, though its slot is not the current one and nobody can reach the quorum. -/
theorem started_while_disabled :
    let c := Node.Config.sample (fun i => .ofLowByte (.ofNat (i + 1))) 1
    let report := Octets.replicate 32 7
    let steps : List Step :=
      [.submitReport (.ofLowByte 1) report none none, .advanceSlots 64, .setFrameConfig 1 0,
        .disableConsensus]
    ∃ n, Node.create c c.startTime = .ok n ∧
      (Progress.start c.startTime n).state.Forward steps ∧
      let s := ((Progress.start c.startTime n).play 0 steps).state
      (apply s .startProcessing).result = .ok () ∧ s.node.oracle.report.refSlot = 31 ∧
        s.node.oracle.report.report = report ∧
        s.node.engine.schedule.frameAt s.now = .ok ⟨2, 95, 127⟩ ∧
        s.node.engine.roster.votesFor ⟨31, report⟩ < s.node.engine.quorum.toNat := by
  intro c report steps
  let final (n : Node) : State := ((Progress.start c.startTime n).play 0 steps).state
  have hplay : (Node.create c c.startTime).toOption.any (fun n => decide (
      (Progress.start c.startTime n).state.Forward steps ∧
        (apply (final n) .startProcessing).result.toOption = some () ∧
        (final n).node.oracle.report.refSlot = 31 ∧
        (final n).node.oracle.report.report = report ∧
        ((final n).node.engine.schedule.frameAt (final n).now).toOption = some ⟨2, 95, 127⟩ ∧
        (final n).node.engine.roster.votesFor ⟨31, report⟩ <
          (final n).node.engine.quorum.toNat)) = true := by
    decide +kernel
  obtain ⟨n, hmade, hforward, hstart, hslot, hreport, hf, hvotes⟩ := exists_of_any hplay
  exact ⟨n, hmade, hforward, toOption_eq_some.mp hstart, hslot, hreport, toOption_eq_some.mp hf,
    hvotes⟩

/-! ### Reports whose deadline is another -/

/-- If the report that the oracle holds is for the current slot, its deadline is that of the
frame. -/
def OnTime (s : State) : Prop :=
  ∀ f, s.node.engine.schedule.frameAt s.now = .ok f →
    f.refSlot = s.node.oracle.report.refSlot →
    s.node.oracle.report.deadline = s.node.engine.schedule.deadlineTime f

/-- A change of the layout moves the deadline of the current frame, for which the oracle holds a
report with the deadline that the frame had before. -/
structure Redates (report : Oracle.Report) (s : State) (step : Step) : Prop
    extends Replans s step where
  held : s.node.oracle.report = report
  onTime : ∃ f, s.node.engine.schedule.frameAt s.now = .ok f ∧ f.refSlot = report.refSlot ∧
    report.deadline = s.node.engine.schedule.deadlineTime f
  moved : ∃ f, (s.next step).node.engine.schedule.frameAt (s.next step).now = .ok f ∧
    f.refSlot = report.refSlot ∧
    report.deadline ≠ (s.next step).node.engine.schedule.deadlineTime f

/-- A report whose deadline is that of its frame stays so, or a change of the layout moves the
deadline of the frame. -/
theorem Spares.of_onTime (hspares : Spares s step) (h : s.node.engine.UpToDate s.now)
    (hnow : s.now ≤ (s.next step).now) (honTime : OnTime s) :
    OnTime (s.next step) ∨ Redates s.node.oracle.report s step := by
  by_cases hnext : OnTime (s.next step)
  · exact .inl hnext
  · right
    simp only [OnTime, Classical.not_forall] at hnext
    obtain ⟨f, hf, hslot, hmoved⟩ := hnext
    rw [hspares.report] at hslot hmoved
    -- A frame that is voted about after the step was the current one before it.
    have hpos : 0 < f.refSlot := by
      rw [hslot]
      exact UInt64.lt_of_le_of_lt (UInt64.zero_le ..) hspares.awaits.unmarked
    have hvoted : f.refSlot ≤ s.node.engine.tally.refSlot := hslot ▸ h.voted hspares.awaits
    obtain ⟨f₀, hf₀, hslot₀⟩ :=
      h.listed.current_before (fun _ hr => past_next hnow hr) hf hpos hvoted
    have hdeadline := honTime f₀ hf₀ (hslot₀.trans hslot)
    obtain hschedule | hreplans := hspares.frames
    · -- The frame is the same, and so is its deadline.
      rw [hschedule] at hf hmoved
      rw [← hslot₀] at hpos
      rw [Schedule.eq_of_refSlot_eq h.valid hf₀ hf hslot₀.symm hpos] at hmoved
      exact absurd hdeadline hmoved
    · exact ⟨hreplans, rfl, ⟨f₀, hf₀, hslot₀.trans hslot, hdeadline⟩, f, hf, hslot, hmoved⟩

theorem onTime_of_justHanded (h : JustHanded s) : OnTime s := by
  obtain ⟨f, hf, -, hdeadline⟩ := h
  intro f' hf' _
  rw [Except.ok.inj (hf'.symm.trans hf)]
  exact hdeadline

/-- While a report waits, its deadline is that of its frame as long as that is the current one, or
the deadline of the frame was moved. -/
theorem onTime_or_redated (h : s.node.engine.UpToDate s.now) (hnew : ¬ s.node.oracle.Awaits)
    (hforward : s.Forward steps) (hawaits : (s.after steps).node.oracle.Awaits) :
    OnTime (s.after steps) ∨ Amid s steps (Redates (s.after steps).node.oracle.report) :=
  holds_or_amid (fun _ hhanded => onTime_of_justHanded hhanded)
    (fun _ _ h hnow hspares honTime => hspares.of_onTime h hnow honTime) h hnew hforward hawaits

/-- Whenever in a play on a clock that does not go back a report is told as agreed, is not being
processed and the deadline of the current frame has not passed, the oracle holds that report for the
current slot and takes the start of processing exactly until the deadline it holds. That is the
deadline of the frame, so the start succeeds, unless it was moved while the report waited. -/
theorem startable_or_redated (h : Node.create c now = .ok n)
    (hforward : (Progress.start now n).state.Forward steps) :
    let s := ((Progress.start now n).play 0 steps).state
    let report := s.node.oracle.report
    ∀ st f, s.node.engine.status s.now = .ok st →
      s.node.engine.schedule.frameAt s.now = .ok f → st.report ≠ Octets.zero →
      st.isProcessing = false → s.node.engine.schedule.grid.slotAt s.now ≤ f.deadlineSlot →
      (report.refSlot = f.refSlot ∧ report.report = st.report) ∧
        ((apply s .startProcessing).result = .ok () ↔
          s.node.engine.schedule.grid.slotAt s.now ≤
            s.node.engine.schedule.grid.slotAt report.deadline) ∧
        (report.deadline = s.node.engine.schedule.deadlineTime f ∧
            (apply s .startProcessing).result = .ok () ∨
          Amid (Progress.start now n).state steps (Redates report)) := by
  intro s report st f hstatus hf hagreed hidle htimely
  have hs : s = (Progress.start now n).state.after steps := play_state _ 0 steps
  obtain ⟨h₀, hnew⟩ := upToDate_start h
  have hupToDate : s.node.engine.UpToDate s.now := upToDate_play h hforward
  obtain ⟨f', hf', rfl⟩ := Engine.status_eq_ok.mp hstatus
  obtain rfl := Except.ok.inj (hf.symm.trans hf')
  obtain ⟨hslot, hreport, hawaits⟩ := hupToDate.awaits_of_agreed ⟨hf, htimely, hidle⟩ hagreed
  have hstart := start_accepted_iff hupToDate
  refine ⟨⟨hslot, hreport⟩, hstart.trans (and_iff_right hawaits), ?_⟩
  have honTime := onTime_or_redated h₀ hnew hforward (hs ▸ hawaits)
  rw [← hs] at honTime
  refine honTime.imp_left fun honTime => ?_
  have hdeadline : report.deadline = s.node.engine.schedule.deadlineTime f :=
    honTime f hf hslot.symm
  refine ⟨hdeadline, hstart.mpr ⟨hawaits, ?_⟩⟩
  change _ ≤ s.node.engine.schedule.grid.slotAt report.deadline
  rw [hdeadline]
  exact TimeGrid.slotAt_le_slotAt_timeOfSlot htimely

/-- Soon after the frame has been enlarged the report can still be started, and its deadline is not
that of the frame because the frame was enlarged. -/
theorem startable_after_enlargement :
    let c := Node.Config.sample (fun i => .ofLowByte (.ofNat (i + 1))) 1
    let steps : List Step :=
      [.submitReport (.ofLowByte 1) (Octets.replicate 32 7) none none, .setFrameConfig 450 0,
        .advanceSlots 5]
    ∃ n, Node.create c c.startTime = .ok n ∧
      (Progress.start c.startTime n).state.Forward steps ∧
      let s := ((Progress.start c.startTime n).play 0 steps).state
      (apply s .startProcessing).result = .ok () ∧
        Amid (Progress.start c.startTime n).state steps (Redates s.node.oracle.report) := by
  intro c steps
  let final (n : Node) : State := ((Progress.start c.startTime n).play 0 steps).state
  have hplay : (Node.create c c.startTime).toOption.any (fun n => decide (
      (Progress.start c.startTime n).state.Forward steps ∧
        ((final n).node.engine.status (final n).now).toOption =
          some ⟨31, Octets.replicate 32 7, false⟩ ∧
        ((final n).node.engine.schedule.frameAt (final n).now).toOption = some ⟨0, 31, 14431⟩ ∧
        (final n).node.engine.schedule.grid.slotAt (final n).now ≤ 14431 ∧
        (final n).node.engine.schedule.grid.slotAt (final n).now ≤
          (final n).node.engine.schedule.grid.slotAt (final n).node.oracle.report.deadline ∧
        (final n).node.oracle.report.deadline ≠
          (final n).node.engine.schedule.deadlineTime ⟨0, 31, 14431⟩)) = true := by
    decide +kernel
  obtain ⟨n, hmade, hforward, hstatus, hf, htimely, hbefore, hmoved⟩ := exists_of_any hplay
  rw [toOption_eq_some] at hstatus hf
  obtain ⟨-, hstart, ⟨hsame, -⟩ | hredated⟩ := startable_or_redated hmade hforward _ _ hstatus hf
    (by decide) rfl htimely
  · exact absurd hsame hmoved
  · exact ⟨n, hmade, hforward, hstart.mpr hbefore, hredated⟩

/-- Between the old and the new deadline of a frame that was enlarged, the report that is told as
agreed cannot be started. -/
theorem refused_after_enlargement :
    let c := Node.Config.sample (fun i => .ofLowByte (.ofNat (i + 1))) 1
    let report := Octets.replicate 32 7
    let steps : List Step :=
      [.submitReport (.ofLowByte 1) report none none, .setFrameConfig 450 0, .advanceSlots 7300]
    ∃ n, Node.create c c.startTime = .ok n ∧
      (Progress.start c.startTime n).state.Forward steps ∧
      let s := ((Progress.start c.startTime n).play 0 steps).state
      s.node.engine.status s.now = .ok ⟨31, report, false⟩ ∧
        s.node.engine.schedule.frameAt s.now = .ok ⟨0, 31, 14431⟩ ∧
        s.node.engine.schedule.grid.slotAt s.now ≤ 14431 ∧
        s.node.oracle.report.deadline ≠ s.node.engine.schedule.deadlineTime ⟨0, 31, 14431⟩ ∧
        (apply s .startProcessing).result ≠ .ok () := by
  intro c report steps
  let final (n : Node) : State := ((Progress.start c.startTime n).play 0 steps).state
  have hplay : (Node.create c c.startTime).toOption.any (fun n => decide (
      (Progress.start c.startTime n).state.Forward steps ∧
        ((final n).node.engine.status (final n).now).toOption = some ⟨31, report, false⟩ ∧
        ((final n).node.engine.schedule.frameAt (final n).now).toOption = some ⟨0, 31, 14431⟩ ∧
        (final n).node.engine.schedule.grid.slotAt (final n).now ≤ 14431 ∧
        (final n).node.oracle.report.deadline ≠
          (final n).node.engine.schedule.deadlineTime ⟨0, 31, 14431⟩ ∧
        (apply (final n) .startProcessing).result.toOption ≠ some ())) = true := by
    decide +kernel
  obtain ⟨n, hmade, hforward, hstatus, hf, htimely, hmoved, hrefused⟩ := exists_of_any hplay
  rw [toOption_eq_some] at hstatus hf
  exact ⟨n, hmade, hforward, hstatus, hf, htimely, hmoved, mt toOption_eq_some.mpr hrefused⟩

end Simulation

end ReportQuorum
