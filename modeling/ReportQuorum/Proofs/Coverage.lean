import ReportQuorum.Proofs.DoneSlots
import ReportQuorum.Proofs.Seats

/-!
# The tally misses no vote

A tally lists the reports of one reference slot only, and clears its list at the first vote for
another. No vote that counts is lost that way: on a clock that does not go back the slot of the list
moves with the current reference slot, so whoever has voted for the current slot finds the report in
the list, whatever became of frames, members and quorum since.

## Main definitions

* `Engine.Listed`: the tally lists every report that a member has voted for last, for its slot

## Main results

* `Engine.Listed.act`, `Engine.Listed.mono`: whatever happens keeps it, and so does time
* `Engine.Listed.after`: it holds after every run on a clock that does not go back
* `Engine.Listed.mem_reports`: whoever has voted for the current slot finds the report in the list
-/

namespace ReportQuorum

namespace Tally

variable {t : Tally} {v : Vote} {d : Digest}

theorem mem_record_self (t : Tally) (v : Vote) : v.report ∈ (t.record v).reports := by
  rw [record]
  dsimp only
  generalize (if t.refSlot = v.refSlot then t.reports else []) = kept
  split
  next hmem => exact hmem
  next => exact List.mem_append_right _ (List.mem_singleton_self _)

/-- A vote for the slot of the list clears nothing. -/
theorem mem_record_of_mem (hslot : t.refSlot = v.refSlot) (hd : d ∈ t.reports) :
    d ∈ (t.record v).reports := by
  rw [record]
  dsimp only
  rw [if_pos hslot]
  split
  · exact hd
  · exact List.mem_append_left _ hd

theorem nodup_record (h : t.reports.Nodup) : (t.record v).reports.Nodup := by
  rw [record]
  dsimp only
  have hkept : (if t.refSlot = v.refSlot then t.reports else []).Nodup := by
    split
    · exact h
    · exact List.nodup_nil
  generalize (if t.refSlot = v.refSlot then t.reports else []) = kept at hkept ⊢
  split
  · exact hkept
  next hnew =>
    exact (List.perm_append_singleton _ _).nodup_iff.mpr (List.nodup_cons.mpr ⟨hnew, hkept⟩)

end Tally

namespace Engine

variable {π ε : Type} [ReportProcessor π ε] {e e₁ : Engine π} {now now' : Word} {c : Command π}

/-- The tally lists every report that a member has voted for last, for the slot of its list, which
is not after the current one. -/
structure Listed (e : Engine π) (now : Word) : Prop where
  distinct : e.tally.reports.Nodup
  covers : ∀ s ∈ e.roster.seats, s.vote.report ≠ Octets.zero → s.vote.refSlot ≤ e.tally.refSlot ∧
    (s.vote.refSlot = e.tally.refSlot → s.vote.report ∈ e.tally.reports)
  reached : ∀ r, r < e.tally.refSlot → e.Past now r

namespace Listed

theorem mono (h : e.Listed now) (hnow : now ≤ now') : e.Listed now' :=
  ⟨h.distinct, h.covers, fun r hr => (h.reached r hr).mono hnow⟩

/-- The slot of the list is not after the current one. -/
theorem le_current (h : e.Listed now) {f : Frame} (hf : e.schedule.frameAt now = .ok f) :
    e.tally.refSlot ≤ f.refSlot := by
  refine UInt64.not_lt.mp fun hlt => ?_
  obtain ⟨f', hf', hpast⟩ := h.reached _ hlt
  rw [Except.ok.inj (hf.symm.trans hf')] at hpast
  exact UInt64.lt_irrefl _ hpast

/-- Whoever has voted for the current slot finds the report in the list. -/
theorem mem_reports (h : e.Listed now) {f : Frame} (hf : e.schedule.frameAt now = .ok f) {s : Seat}
    (hs : s ∈ e.roster.seats) (hvote : s.vote.refSlot = f.refSlot)
    (hreport : s.vote.report ≠ Octets.zero) :
    e.tally.refSlot = f.refSlot ∧ s.vote.report ∈ e.tally.reports := by
  obtain ⟨hle, hmem⟩ := h.covers s hs hreport
  rw [hvote] at hle hmem
  have hslot := UInt64.le_antisymm (h.le_current hf) hle
  exact ⟨hslot, hmem hslot.symm⟩

/-! ### Acts -/

theorem congr (h : e.Listed now) (hroster : e₁.roster = e.roster)
    (hslot : e₁.tally.refSlot = e.tally.refSlot) (hreports : e₁.tally.reports = e.tally.reports)
    (hpast : ∀ r, e.Past now r → e₁.Past now r) : e₁.Listed now where
  distinct := by
    rw [hreports]
    exact h.distinct
  covers := by
    rw [hroster, hslot, hreports]
    exact h.covers
  reached r hr := by
    rw [hslot] at hr
    exact hpast r (h.reached r hr)

/-- A vote for the current slot is put on the list, and the votes that the list loses are for
earlier slots. -/
theorem recordVote (h : e.Listed now) {f : Frame} (hf : e.schedule.frameAt now = .ok f)
    {sender : Address} {vote : Vote} (hvote : vote.refSlot = f.refSlot) :
    (e.recordVote sender vote).Listed now where
  distinct := Tally.nodup_record h.distinct
  covers s hs hreport := by
    obtain ⟨s₀, hs₀, rfl⟩ := List.mem_map.mp hs
    have hslot : e.tally.refSlot ≤ vote.refSlot := hvote ▸ h.le_current hf
    by_cases hsender : s₀.member = sender
    · simp only [if_pos hsender]
      exact ⟨UInt64.le_refl _, fun _ => Tally.mem_record_self _ _⟩
    · simp only [if_neg hsender] at hreport ⊢
      obtain ⟨hle, hmem⟩ := h.covers s₀ hs₀ hreport
      refine ⟨UInt64.le_trans hle hslot, fun heq => ?_⟩
      replace heq : s₀.vote.refSlot = vote.refSlot := heq
      have hold : e.tally.refSlot = vote.refSlot := UInt64.le_antisymm hslot (heq ▸ hle)
      exact Tally.mem_record_of_mem hold (hmem (heq.trans hold.symm))
  reached r hr := by
    have hlt : r < f.refSlot := hvote ▸ hr
    exact ⟨f, hf, hlt⟩

theorem amends {settles : Bool} (h : e.Listed now) (hc : e.Amends now c e₁ settles) :
    e₁.Listed now := by
  have hpast : ∀ r, e.Past now r → e₁.Past now r := fun r hr => hr.amends hc
  cases hc with
  | submitReport hjudge =>
    obtain ⟨f, hvote, -⟩ := admissible_of_judge hjudge
    exact h.recordVote hvote.current hvote.slot
  | addMember _ hr _ =>
    refine ⟨by simpa [emit] using h.distinct, ?_, ?_⟩
    · intro s hs hreport
      simp only [requorum_roster, requorum_tally, emit] at hs ⊢
      obtain ⟨hold, -⟩ | rfl := Roster.mem_of_mem_insert hr hs
      · exact h.covers s hold hreport
      · -- A new member has not voted.
        exact absurd rfl hreport
    · intro r hr
      exact hpast r (h.reached r (by simpa [emit] using hr))
  | removeMember _ hr _ =>
    refine ⟨by simpa [emit] using h.distinct, ?_, ?_⟩
    · intro s hs hreport
      simp only [requorum_roster, requorum_tally, emit] at hs ⊢
      exact h.covers s (Roster.mem_of_mem_remove hr hs) hreport
    · intro r hr
      exact hpast r (h.reached r (by simpa [emit] using hr))
  | _ => exact h.congr (by simp) (by simp) (by simp) hpast

theorem of_sameVotes (h : e.Listed now) (hsame : e.SameVotes e₁) : e₁.Listed now :=
  h.congr hsame.roster hsame.refSlot hsame.reports fun _ hr => hr.congr hsame.schedule

theorem performed {r : Reply (Error ε) (Engine π) (Option π)} (h : e.Listed now)
    (hr : e.Performed now c r) : r.state.Listed now := by
  cases hr with
  | refused _ => exact h
  | amended hamends => exact h.amends hamends
  | settled hamends hs => exact (h.amends hamends).of_sameVotes hs.sameVotes
  | undone _ _ => exact h.congr rfl rfl rfl fun _ hr => hr.congr rfl
  | replaced _ _ _ _ => exact h.congr rfl rfl rfl fun _ hr => hr.congr rfl

/-- Whatever happens to an engine, its tally misses no vote. -/
theorem act (h : e.Listed now) (a : Act π) : (e.act now a).Listed now := by
  cases a with
  | call c => exact h.performed (e.performed now c)
  | tend f => exact h.congr rfl rfl rfl fun _ hr => hr.congr rfl
  | drain => exact h.congr rfl rfl rfl fun _ hr => hr.congr rfl

theorem after (h : e.Listed now) {run : List (Word × Act π)}
    (hclock : (now :: run.map (·.1)).Pairwise (· ≤ ·))
    (hnow : ∀ t ∈ now :: run.map (·.1), t ≤ now') : (e.after run).Listed now' :=
  invariant_of_clock (fun _ _ _ hle h => h.mono hle) (fun _ _ a h => h.act a) h hclock hnow

end Listed

omit [ReportProcessor π ε] in
/-- Nothing has been voted for in a new engine. -/
theorem Created.listed {setup : Setup} {p : π} (h : e.Created setup p) (now : Word) :
    e.Listed now := by
  refine ⟨?_, ?_, ?_⟩
  · rw [h.tally]
    exact List.nodup_nil
  · rw [h.roster]
    exact nofun
  · rw [h.tally]
    exact fun r hr => absurd hr (UInt64.not_lt.mpr (UInt64.zero_le ..))

end Engine

end ReportQuorum
