import Mathlib.Algebra.GroupWithZero.Nat
import ReportQuorum.Engine.Query
import ReportQuorum.Proofs.Coverage
import ReportQuorum.Proofs.Majority

/-!
# The tally is exact

The list of reports says which of them are counted, the seats say how often. As the list misses no
vote and nobody is counted for two reports, the list has every report that the quorum lets win, no
two of them can win, and the supports add up to the number of those who have voted.

## Main definitions

* `Engine.Reaches`: a report has as many votes as it needs
* `Engine.Exact`: what an engine tells of a reference slot is what the accepted calls tell

## Main results

* `Engine.Reaches.report_eq`: no two reports have as many votes as they need
* `Engine.Reaches.winner`, `Engine.Listed.winner_iff`: the report that has as many votes as it needs
  wins
* `Engine.tally_exact`: what an engine tells after a run on a clock that does not go back
-/

namespace ReportQuorum

section Counting

variable {α β : Type} {xs : List α}

/-- No item is counted for both of two conditions that exclude each other. -/
theorem countP_add_countP {p q : α → Bool} (h : ∀ x ∈ xs, p x = true → q x = false) :
    xs.countP p + xs.countP q = xs.countP fun x => p x || q x := by
  induction xs with
  | nil => rfl
  | cons x xs ih =>
    have hrest := ih fun y hy => h y (List.mem_cons_of_mem _ hy)
    have hfirst := h x (List.mem_cons_self ..)
    simp only [List.countP_cons, ← hrest]
    cases hp : p x with
    | true =>
      simp only [hfirst hp, Bool.true_or]
      grind
    | false =>
      simp only [Bool.false_or]
      grind

/-- Counting the items of each value counts every item with one of the values once. -/
theorem sum_countP_eq [DecidableEq β] (f : α → β) {values : List β} (h : values.Nodup) :
    (values.map fun v => xs.countP (f · = v)).sum = xs.countP (f · ∈ values) := by
  induction values with
  | nil => simp
  | cons v values ih =>
    obtain ⟨hnew, hrest⟩ := List.nodup_cons.mp h
    rw [List.map_cons, List.sum_cons, ih hrest, countP_add_countP]
    · refine List.countP_congr fun x _ => ?_
      simp
    · intro x _ hx
      simp only [decide_eq_true_eq, decide_eq_false_iff_not] at hx ⊢
      exact hx ▸ hnew

end Counting

namespace Roster

variable {r : Roster} {v w : Vote}

/-- Nobody's last vote is for two reports. -/
theorem votesFor_add_le (h : v ≠ w) : r.votesFor v + r.votesFor w ≤ r.size := by
  rw [votesFor, votesFor, countP_add_countP]
  · exact List.countP_le_length
  · intro s _ hs
    simp only [decide_eq_true_eq, decide_eq_false_iff_not] at hs ⊢
    rwa [hs]

theorem exists_of_votesFor_pos (h : 0 < r.votesFor v) : ∃ s ∈ r.seats, s.vote = v := by
  obtain ⟨s, hs, hvote⟩ := List.countP_pos_iff.mp h
  exact ⟨s, hs, of_decide_eq_true hvote⟩

end Roster

namespace Tally

variable {t : Tally} {refSlot : Word} {r : Roster} {v : Variant}

theorem nodup_variants (h : t.reports.Nodup) : ((t.variants refSlot r).map (·.report)).Nodup := by
  rw [variants]
  split
  · rw [List.map_map]
    exact (List.map_id t.reports).symm ▸ h
  · exact List.nodup_nil

end Tally

namespace Engine

variable {π ε : Type} {e : Engine π} {now : Word} {f : Frame} {cs : List (Command π)}

/-! ### The votes on the seats -/

/-- A report has as many votes as the quorum demands, and one at least. -/
def Reaches (e : Engine π) (v : Vote) : Prop := max 1 e.quorum.toNat ≤ e.roster.votesFor v

/-- No two reports have as many votes as they need. -/
theorem Reaches.eq {v w : Vote} (hv : e.Reaches v) (h : e.Faithful cs)
    (hsize : e.roster.size < UInt64.size) (hw : e.Reaches w) : v = w := by
  refine Decidable.byContradiction fun hne => ?_
  have hsum : e.roster.votesFor v + e.roster.votesFor w ≤ e.roster.size :=
    Roster.votesFor_add_le hne
  rw [Reaches] at hv hw
  obtain ⟨-, hempty⟩ | hmajority := h.quorum
  · -- Before a quorum is set there are no members, and so no votes.
    have hzero : e.roster.size = 0 := by
      rw [Roster.size, ← List.length_map (f := (·.member))]
      exact congrArg List.length hempty
    omega
  · -- Two strict majorities are more than all members.
    have := Faithful.majority_le_quorum hsize hmajority
    omega

/-- A report that wins has as many votes as it needs. -/
theorem reaches_of_winner (hsize : e.roster.size < UInt64.size) {refSlot : Word} {v : Variant}
    (h : e.winnerFor refSlot = some v) : e.Reaches ⟨refSlot, v.report⟩ := by
  obtain ⟨-, hsupport, hpos, hquorum⟩ := Tally.exists_of_winner h
  rw [UInt64.lt_iff_toNat_lt, hsupport, Roster.toNat_support hsize, UInt64.toNat_zero] at hpos
  rw [UInt64.le_iff_toNat_le, hsupport, Roster.toNat_support hsize] at hquorum
  exact Nat.max_le.mpr ⟨hpos, hquorum⟩

/-- A report on the list that has as many votes as it needs wins. -/
theorem Reaches.winner {refSlot : Word} {d : Digest} (h : e.Reaches ⟨refSlot, d⟩)
    (hcs : e.Faithful cs) (hsize : e.roster.size < UInt64.size) (hslot : e.tally.refSlot = refSlot)
    (hlisted : d ∈ e.tally.reports) : (e.winnerFor refSlot).map (·.report) = some d := by
  have hvariant : ⟨d, e.roster.support ⟨refSlot, d⟩⟩ ∈ e.tally.variants refSlot e.roster :=
    Tally.mem_variants.mpr ⟨hslot, hlisted, rfl⟩
  -- The first report to reach the quorum wins, and no other reaches it.
  have hfound : (e.winnerFor refSlot).isSome := by
    refine List.find?_isSome.mpr ⟨_, hvariant, ?_⟩
    simp only [Bool.and_eq_true, decide_eq_true_eq, UInt64.lt_iff_toNat_lt,
      UInt64.le_iff_toNat_le, Roster.toNat_support hsize, UInt64.toNat_zero]
    exact Nat.max_le.mp h
  obtain ⟨v, hv⟩ := Option.isSome_iff_exists.mp hfound
  rw [hv, Option.map_some]
  exact congrArg (some ·.report) ((reaches_of_winner hsize hv).eq hcs hsize h)

/-- The report that has as many votes as it needs wins, and no other. -/
theorem Listed.winner_iff (h : e.Listed now) (hf : e.schedule.frameAt now = .ok f)
    (hcs : e.Faithful cs) (hsize : e.roster.size < UInt64.size) {d : Digest}
    (hd : d ≠ Octets.zero) :
    (e.winnerFor f.refSlot).map (·.report) = some d ↔ e.Reaches ⟨f.refSlot, d⟩ := by
  constructor
  · intro hwinner
    obtain ⟨v, hv, rfl⟩ := Option.map_eq_some_iff.mp hwinner
    exact reaches_of_winner hsize hv
  · intro hreach
    obtain ⟨s, hs, hvote⟩ := Roster.exists_of_votesFor_pos (Nat.max_le.mp hreach).1
    -- Somebody has voted for it, so it is on the list.
    obtain ⟨hslot, hlisted⟩ := h.mem_reports hf hs (by rw [hvote]) (by rwa [hvote])
    rw [hvote] at hlisted
    exact hreach.winner hcs hsize hslot hlisted

/-- Whoever has voted for a report is counted for one on the list. -/
theorem Listed.mem_variants_iff (h : e.Listed now) (hf : e.schedule.frameAt now = .ok f)
    (hnamed : e.tally.Named) {s : Seat} (hs : s ∈ e.roster.seats) :
    s.vote ∈ (e.tally.variants f.refSlot e.roster).map (fun v => ⟨f.refSlot, v.report⟩) ↔
      s.vote.refSlot = f.refSlot ∧ s.vote.report ≠ Octets.zero := by
  rw [List.mem_map]
  constructor
  · rintro ⟨v, hv, hvote⟩
    rw [← hvote]
    exact ⟨rfl, hnamed _ (Tally.mem_variants.mp hv).2.1⟩
  · rintro ⟨hslot, hreport⟩
    obtain ⟨htally, hlisted⟩ := h.mem_reports hf hs hslot hreport
    refine ⟨⟨s.vote.report, e.roster.support ⟨f.refSlot, s.vote.report⟩⟩,
      Tally.mem_variants.mpr ⟨htally, hlisted, rfl⟩, ?_⟩
    rw [← hslot]

/-! ### The votes that stand -/

/-- How many members let a vote stand, by the calls accepted so far. -/
def backers (e : Engine π) (cs : List (Command π)) (v : Vote) : Nat :=
  e.roster.members.countP fun a => standing a cs = some v

/-- How many members let a vote for a reference slot stand. -/
def voters (e : Engine π) (cs : List (Command π)) (refSlot : Word) : Nat :=
  e.roster.members.countP fun a =>
    (standing a cs).any fun v => v.refSlot = refSlot && v.report ≠ Octets.zero

/-- A report is backed by as many members as the quorum demands, and by one at least. -/
structure Carried (e : Engine π) (cs : List (Command π)) (v : Vote) : Prop where
  nonzero : v.report ≠ Octets.zero
  reached : max 1 e.quorum.toNat ≤ e.backers cs v

theorem Faithful.carried_iff (h : e.Faithful cs) {v : Vote} :
    e.Carried cs v ↔ v.report ≠ Octets.zero ∧ e.Reaches v := by
  constructor
  · rintro ⟨hreport, hreached⟩
    refine ⟨hreport, ?_⟩
    rwa [Reaches, Roster.votesFor, h.countP_seats hreport]
  · rintro ⟨hreport, hreached⟩
    refine ⟨hreport, ?_⟩
    rwa [Reaches, Roster.votesFor, h.countP_seats hreport] at hreached

theorem Faithful.countP_voted (h : e.Faithful cs) (refSlot : Word) :
    e.roster.seats.countP (fun s => s.vote.refSlot = refSlot ∧ s.vote.report ≠ Octets.zero) =
      e.voters cs refSlot := by
  rw [voters, Roster.members, List.countP_map]
  refine List.countP_congr fun s hs => ?_
  simp only [Function.comp_apply, h.votes s hs]
  cases standing s.member cs with
  | none => simp [Vote.blank]
  | some v => simp

variable [ReportProcessor π ε]

/-- What an engine tells of the votes for the current reference slot is what the accepted calls
tell. -/
structure Exact (e : Engine π) (now : Word) (cs : List (Command π)) (refSlot : Word) : Prop where
  nodup : e.roster.members.Nodup
  unique : ∀ d d', e.Carried cs ⟨refSlot, d⟩ → e.Carried cs ⟨refSlot, d'⟩ → d = d'
  /-- The report that is told as agreed is the one that is carried, if there is one. -/
  status : ∃ st, e.status now = .ok st ∧ st.refSlot = refSlot ∧
    (∀ d, e.Carried cs ⟨refSlot, d⟩ → st.report = d) ∧
    ((∀ d, ¬ e.Carried cs ⟨refSlot, d⟩) → st.report = Octets.zero)
  /-- The reports that are told as named are distinct, with their supports, and none is missing. -/
  variants : ∃ vs, e.variants now = .ok vs ∧ (vs.map (·.report)).Nodup ∧
    (∀ v ∈ vs, v.report ≠ Octets.zero ∧ v.support.toNat = e.backers cs ⟨refSlot, v.report⟩) ∧
    (vs.map (·.support.toNat)).sum = e.voters cs refSlot

omit [ReportProcessor π ε] in
theorem leadingReport_eq_getD : e.leadingReport f =
    ((e.winnerFor f.refSlot).map (·.report)).getD Octets.zero := by
  rw [leadingReport, winnerFor]
  cases e.tally.winner f.refSlot e.quorum e.roster <;> rfl

omit [ReportProcessor π ε] in
theorem Listed.leadingReport_eq (h : e.Listed now) (hf : e.schedule.frameAt now = .ok f)
    (hcs : e.Faithful cs) (hsize : e.roster.size < UInt64.size) :
    (∀ d, e.Carried cs ⟨f.refSlot, d⟩ → e.leadingReport f = d) ∧
      ((∀ d, ¬ e.Carried cs ⟨f.refSlot, d⟩) → e.leadingReport f = Octets.zero) := by
  refine ⟨fun d hd => ?_, fun hnone => ?_⟩
  · obtain ⟨hreport, hreach⟩ := hcs.carried_iff.mp hd
    rw [leadingReport_eq_getD, (h.winner_iff hf hcs hsize hreport).mpr hreach, Option.getD_some]
  · rw [leadingReport_eq_getD]
    cases hwinner : e.winnerFor f.refSlot with
    | none => rfl
    | some v =>
      have hreport := hcs.named _ (Tally.exists_of_winner hwinner).1
      have hreach := (h.winner_iff hf hcs hsize hreport).mp (by rw [hwinner]; rfl)
      exact absurd (hcs.carried_iff.mpr ⟨hreport, hreach⟩) (hnone _)

omit [ReportProcessor π ε] in
/-- Every vote for the current reference slot is in the support of one report. -/
theorem Listed.sum_support (h : e.Listed now) (hf : e.schedule.frameAt now = .ok f)
    (hcs : e.Faithful cs) (hsize : e.roster.size < UInt64.size) :
    ((e.tally.variants f.refSlot e.roster).map (·.support.toNat)).sum = e.voters cs f.refSlot := by
  let named : List Vote := (e.tally.variants f.refSlot e.roster).map fun v => ⟨f.refSlot, v.report⟩
  have hnodup : named.Nodup := by
    refine List.pairwise_map.mpr ((List.pairwise_map.mp (Tally.nodup_variants h.distinct)).imp ?_)
    exact fun hne heq => hne (congrArg Vote.report heq)
  calc ((e.tally.variants f.refSlot e.roster).map (·.support.toNat)).sum
      = (named.map fun v => e.roster.votesFor v).sum := by
        rw [List.map_map]
        refine congrArg List.sum (List.map_congr_left fun v hv => ?_)
        rw [(Tally.mem_variants.mp hv).2.2, Roster.toNat_support hsize]
        rfl
    _ = e.roster.seats.countP (·.vote ∈ named) := sum_countP_eq _ hnodup
    _ = e.roster.seats.countP (fun s => s.vote.refSlot = f.refSlot ∧
          s.vote.report ≠ Octets.zero) := by
        refine List.countP_congr fun s hs => ?_
        rw [decide_eq_true_eq, decide_eq_true_eq]
        exact h.mem_variants_iff hf hcs.named hs
    _ = e.voters cs f.refSlot := hcs.countP_voted f.refSlot

theorem status_eq_ok {st : Status} : e.status now = .ok st ↔
    ∃ f, e.schedule.frameAt now = .ok f ∧
      ⟨f.refSlot, e.leadingReport f, ReportProcessor.isProcessing e.processor f.refSlot⟩ = st := by
  rw [Engine.status, currentFrame, bind_eq_ok]
  simp only [pure_eq_ok]

/-- What an engine tells is exact if its list misses no vote and its seats tell what the accepted
calls tell. -/
theorem Listed.exact (h : e.Listed now) (hf : e.schedule.frameAt now = .ok f)
    (hcs : e.Faithful cs) (hsize : e.roster.size < UInt64.size) : e.Exact now cs f.refSlot where
  nodup := hcs.nodup
  unique d d' hd hd' := by
    have hreach := (hcs.carried_iff.mp hd).2
    exact congrArg Vote.report (hreach.eq hcs hsize (hcs.carried_iff.mp hd').2)
  status := ⟨_, status_eq_ok.mpr ⟨f, hf, rfl⟩, rfl, h.leadingReport_eq hf hcs hsize⟩
  variants := by
    refine ⟨e.tally.variants f.refSlot e.roster, ?_, Tally.nodup_variants h.distinct, ?_,
      h.sum_support hf hcs hsize⟩
    · rw [Engine.variants, currentFrame, hf]
      rfl
    · intro v hv
      obtain ⟨-, hlisted, hsupport⟩ := Tally.mem_variants.mp hv
      have hreport := hcs.named _ hlisted
      rw [hsupport]
      exact ⟨hreport, hcs.toNat_support hsize hreport⟩

/-- After every run of a new engine on a clock that does not go back, whatever its processor does,
at most one report is carried by a quorum; it is the one told as agreed, and the reports told as
named are those that members let stand, each with its backers. -/
theorem tally_exact {setup : Setup} {p : π} {e₀ : Engine π} (h : create setup p = .ok e₀)
    (run : List (Word × Act π)) (now : Word)
    (hclock : (run.map (·.1) ++ [now]).Pairwise (· ≤ ·))
    (hsize : (e₀.after run).roster.size < UInt64.size - 1) (f : Frame)
    (hf : (e₀.after run).schedule.frameAt now = .ok f) :
    (e₀.after run).Exact now (e₀.accepted run) f.refSlot := by
  obtain ⟨hrun, -, hnow⟩ := List.pairwise_append.mp hclock
  -- The clock of the run has not passed the moment of the question.
  have hlisted : (e₀.after run).Listed now := by
    refine ((created_of_create h).listed 0).after ?_ ?_
    · exact List.pairwise_cons.mpr ⟨fun t _ => UInt64.zero_le .., hrun⟩
    · intro t ht
      obtain rfl | ht := List.mem_cons.mp ht
      · exact UInt64.zero_le ..
      · exact hnow t ht now (List.mem_singleton_self _)
  have hcs : (e₀.after run).Faithful (e₀.accepted run) := (faithful_of_create h).after run
  exact hlisted.exact hf hcs (by omega)

/-- When two of three members name a report and the third another one, the engine tells exactly
that. -/
theorem exact_of_split_votes :
    let admin : Address := .ofLowByte 9
    let setup : Setup := ⟨.ofLowByte 8, ⟨32, 12, 100⟩, 1, 0, admin⟩
    let recorder : Recorder := { address := .ofLowByte 7, version := 1, processingSlot := 0 }
    let run : List (Word × Act Recorder) :=
      ([.grantRole admin .manageMembersAndQuorum admin, .addMember admin (.ofLowByte 1) 1,
        .addMember admin (.ofLowByte 2) 2, .addMember admin (.ofLowByte 3) 2,
        .updateInitialEpoch admin 1].map fun c => (100, .call c)) ++
      [.submitReport (.ofLowByte 1) ⟨31, Octets.replicate 32 7⟩ 1,
        .submitReport (.ofLowByte 2) ⟨31, Octets.replicate 32 8⟩ 1,
        .submitReport (.ofLowByte 3) ⟨31, Octets.replicate 32 7⟩ 1].map fun c => (484, .call c)
    ∃ e₀, create setup recorder = .ok e₀ ∧ (run.map (·.1) ++ [(484 : Word)]).Pairwise (· ≤ ·) ∧
      (e₀.accepted run).length = run.length ∧
      (e₀.after run).schedule.frameAt 484 = .ok ⟨0, 31, 63⟩ ∧
      (e₀.after run).Exact 484 (e₀.accepted run) 31 := by
  intro admin setup recorder run
  have hrun : (create setup recorder).toOption.any (fun e₀ => decide (
      (e₀.accepted run).length = run.length ∧
        ((e₀.after run).schedule.frameAt 484).toOption = some ⟨0, 31, 63⟩ ∧
        (e₀.after run).roster.size < UInt64.size - 1)) = true := by
    decide +kernel
  have hclock : (run.map (·.1) ++ [(484 : Word)]).Pairwise (· ≤ ·) := by decide +kernel
  obtain ⟨e₀, hmade, haccepted, hf, hsize⟩ := exists_of_any hrun
  rw [toOption_eq_some] at hf
  exact ⟨e₀, hmade, hclock, haccepted, hf, tally_exact hmade run 484 hclock hsize _ hf⟩

end Engine

end ReportQuorum
