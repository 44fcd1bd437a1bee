import ReportQuorum.Node.Config
import ReportQuorum.Proofs.HexTexts
import ReportQuorum.Proofs.JsonPrinting
import ReportQuorum.Scenario

/-!
# Saved files load back

A configuration or a script that was written to a file is read from it unchanged, whatever values
are in it. The text that is written is one of many for the same tree, and a tree is read back
because each of its parts is: words as number literals, addresses and digests as their digits,
missing values as nulls, lists item by item and records by the names of their fields. A step is read
twice, first for its action and then for its fields.

## Main definitions

* `LawfulJsonForm`: types whose values are read back from their trees

## Main results

* `readJson?_writeJson`: what is written is read back
* `Json.Fields.ofTree?_record`: the fields of a record are those it was written with
* `saved_files_load_back`: configurations and scripts are read back
-/

namespace ReportQuorum

open Json (Tree Fields)

/-- Types whose values have a text of their own and are read back from their trees. -/
class LawfulJsonForm (α : Type) [JsonForm α] : Prop where
  printable : ∀ x : α, (toTree x).Printable
  ofTree?_toTree : ∀ x : α, ofTree? (toTree x) = some x

export LawfulJsonForm (printable ofTree?_toTree)

section

variable {α : Type} [JsonForm α] [LawfulJsonForm α]

/-- A text in which the tokens of a value's tree are written is read as the value. -/
theorem readJson?_of_spelled {x : α} {text : String}
    (h : Json.Spelled (toTree x).tokens text.toList) : readJson? text = some x := by
  rw [readJson?, Tree.parse?_of_spelled h, Option.bind_some, ofTree?_toTree]

theorem spelled_writeJson (x : α) : Json.Spelled (toTree x).tokens (writeJson x).toList :=
  Tree.spelled_pretty (printable x)

/-- What is written is read back. -/
theorem readJson?_writeJson (x : α) : readJson? (writeJson x) = some x :=
  readJson?_of_spelled (spelled_writeJson x)

end

/-! ### Values -/

instance : LawfulJsonForm Word where
  printable w := Tree.printable_nat w.toNat
  ofTree?_toTree w := by
    change (if w.toNat < UInt64.size then some (UInt64.ofNat w.toNat) else none) = some w
    rw [if_pos w.toNat_lt_size, UInt64.ofNat_toNat]

instance {n : Nat} : LawfulJsonForm (Octets n) where
  printable x := Tree.printable_text x.text
  ofTree?_toTree x := by
    change (Octets.ofHex x.text).toOption = some x
    rw [Octets.ofHex_text]
    rfl

instance : LawfulJsonForm (Option Word) where
  printable
    | none => Tree.printable_null
    | some w => printable w
  ofTree?_toTree
    | none => rfl
    | some w => congrArg (Option.map some) (ofTree?_toTree w)

instance {α : Type} [JsonForm α] [LawfulJsonForm α] : LawfulJsonForm (List α) where
  printable xs := by
    refine Tree.printable_array fun t ht => ?_
    obtain ⟨x, -, rfl⟩ := List.mem_map.mp ht
    exact printable x
  ofTree?_toTree xs := by
    change (xs.map toTree).mapM ofTree? = some xs
    induction xs with
    | nil => rfl
    | cons x xs ih => simp [ofTree?_toTree, ih]

/-! ### Records -/

namespace Json.Fields

theorem ofMembers?_record {names : List String} {fs : Fields} (hnames : ∀ f ∈ fs, f.1 ∈ names)
    (hnodup : (fs.map (·.1)).Nodup) :
    ofMembers? names (fs.map fun (k, t) => (some k, t)) = some fs := by
  induction fs with
  | nil => rfl
  | cons f fs ih =>
    obtain ⟨k, t⟩ := f
    obtain ⟨hk, hnames⟩ := List.forall_mem_cons.mp hnames
    obtain ⟨hnew, hnodup⟩ := List.nodup_cons.mp hnodup
    have hlookup : fs.lookup k = none := by
      rw [List.lookup_eq_none_iff]
      intro f hf
      have hne : f.1 ≠ k := by
        rintro rfl
        exact hnew (List.mem_map.mpr ⟨f, hf, rfl⟩)
      simpa using hne.symm
    simp [ofMembers?, ih hnames hnodup, hk, hlookup]

/-- The fields of a record are those it was written with. -/
theorem ofTree?_record {names : List String} {fs : Fields} (hnames : fs.map (·.1) = names)
    (hnodup : names.Nodup) : Fields.ofTree? names (.record fs) = some fs := by
  subst hnames
  exact ofMembers?_record (fun f hf => List.mem_map.mpr ⟨f, hf, rfl⟩) hnodup

variable {α β : Type} [JsonForm α] {fs : Fields} {name : String} {r : β}

/-- A field that is there is read and handed on. -/
theorem required_bind [LawfulJsonForm α] {x : α} {f : α → Option β}
    (h : fs.lookup name = some (toTree x)) (hf : f x = some r) :
    (Fields.required fs name >>= f) = some r := by
  have hfield : Fields.required fs name = some x := by
    rw [required, h, Option.bind_some, ofTree?_toTree]
  rwa [hfield]

theorem optional_bind [LawfulJsonForm (Option α)] {x : Option α} {f : Option α → Option β}
    (h : fs.lookup name = some (toTree x)) (hf : f x = some r) :
    (Fields.optional fs name >>= f) = some r := by
  have hfield : Fields.optional fs name = some x := by
    rw [optional, h]
    exact ofTree?_toTree x
  rwa [hfield]

end Json.Fields

open Json.Fields (required_bind optional_bind)

instance : LawfulJsonForm TimeGrid where
  printable g := by
    refine Tree.printable_record ?_
    simp only [List.forall_mem_cons]
    exact ⟨printable g.slotsPerEpoch, printable g.secondsPerSlot, printable g.genesisTime, by simp⟩
  ofTree?_toTree g := by
    refine Option.bind_eq_some_iff.mpr ⟨_, Fields.ofTree?_record rfl (by decide), ?_⟩
    exact required_bind rfl (required_bind rfl (required_bind rfl rfl))

instance : LawfulJsonForm Node.Config where
  printable c := by
    refine Tree.printable_record ?_
    simp only [List.forall_mem_cons]
    exact ⟨printable c.grid, printable c.epochsPerFrame, printable c.fastLaneSlots,
      printable c.initialEpoch, printable c.version, printable c.admin, printable c.engine,
      printable c.oracle, printable c.members, printable c.quorum, by simp⟩
  ofTree?_toTree c := by
    refine Option.bind_eq_some_iff.mpr ⟨_, Fields.ofTree?_record rfl (by decide), ?_⟩
    refine required_bind rfl (required_bind rfl (required_bind rfl (optional_bind rfl ?_)))
    refine required_bind rfl (required_bind rfl (required_bind rfl (required_bind rfl ?_)))
    exact required_bind rfl (required_bind rfl rfl)

/-! ### Steps -/

/-- Trees of which every reader makes something, without items and members. -/
structure Json.Tree.IsLeaf (t : Tree) : Prop where
  depth_eq : t.depth = 0
  isPayload : (Payload.ofTree? t).isSome
  printable : t.Printable

theorem Json.Tree.isLeaf_word (w : Word) : (toTree w).IsLeaf where
  depth_eq := rfl
  isPayload := by
    have hfits : w.toNat < UInt64.size := w.toNat_lt_size
    change ((Payload.Number.ofNumeral? (.ofNat w.toNat)).map Payload.number).isSome
    simp [Payload.Number.ofNumeral?, Numeral.ofNat, hfits]
  printable := printable w

theorem Json.Tree.isLeaf_octets {n : Nat} (x : Octets n) : (toTree x).IsLeaf :=
  ⟨rfl, rfl, printable x⟩

theorem Json.Tree.isLeaf_option : ∀ w : Option Word, (toTree w).IsLeaf
  | none => ⟨rfl, rfl, printable (none : Option Word)⟩
  | some w => isLeaf_word w

theorem Json.Tree.depth_record {fs : Fields} (h : ∀ f ∈ fs, f.2.depth = 0) :
    (Tree.record fs).depth = 1 := by
  have members : Tree.depthMembers (fs.map fun (k, t) => (some k, t)) = 0 := by
    induction fs with
    | nil => rfl
    | cons f fs ih =>
      obtain ⟨hf, hfs⟩ := List.forall_mem_cons.mp h
      rw [List.map_cons, Tree.depthMembers, hf, ih hfs]
      rfl
  rw [Tree.record, Tree.depth, members]

theorem Payload.isSome_ofTree?_record {fs : Fields} (h : ∀ f ∈ fs, (Payload.ofTree? f.2).isSome) :
    (Payload.ofTree? (.record fs)).isSome := by
  have members : (Payload.ofMembers? (fs.map fun (k, t) => (some k, t))).isSome := by
    induction fs with
    | nil => rfl
    | cons f fs ih =>
      obtain ⟨hf, hfs⟩ := List.forall_mem_cons.mp h
      obtain ⟨v, hv⟩ := Option.isSome_iff_exists.mp hf
      obtain ⟨vs, hvs⟩ := Option.isSome_iff_exists.mp (ih hfs)
      simp [Payload.ofMembers?, hv, hvs]
  rw [Tree.record, Payload.ofTree?, Option.isSome_map]
  exact members

namespace Scenario.Step

theorem isLeaf_fields (s : Step) : ∀ f ∈ s.fields, f.2.IsLeaf := by
  cases s <;> simp [fields, Tree.isLeaf_word, Tree.isLeaf_octets, Tree.isLeaf_option]

/-- The fields of a step are those that its action asks for. -/
theorem fieldNames?_action (s : Step) :
    ∃ least, fieldNames? s.action = some (s.fields.map (·.1), least) := by
  cases s <;> exact ⟨_, rfl⟩

theorem nodup_fields (s : Step) : (s.fields.map (·.1)).Nodup ∧ "action" ∉ s.fields.map (·.1) := by
  cases s <;> simp [fields]

theorem ofFields?_fields (s : Step) : ofFields? s.action s.fields = some s := by
  cases s with
  | submitReport =>
    exact required_bind rfl (required_bind rfl (optional_bind rfl (optional_bind rfl rfl)))
  | addMember => exact required_bind rfl (required_bind rfl rfl)
  | removeMember => exact required_bind rfl (required_bind rfl rfl)
  | setFrameConfig => exact required_bind rfl (required_bind rfl rfl)
  | disableConsensus => rfl
  | startProcessing => rfl
  | _ => exact required_bind rfl rfl

/-- The action is found before it is known which fields count. -/
theorem action?_record {fs : Fields} (action : String) (h : "action" ∉ fs.map (·.1)) :
    action? ((("action", Tree.text action) :: fs).map fun (k, t) => (some k, t)) = some action := by
  have others : ((fs.map fun (k, t) => (some k, t)).filter fun m => m.1 = some "action") = [] := by
    rw [List.filter_eq_nil_iff]
    intro m hm
    obtain ⟨f, hf, rfl⟩ := List.mem_map.mp hm
    have hne : f.1 ≠ "action" := fun he => h (List.mem_map.mpr ⟨f, hf, he⟩)
    simpa using hne
  rw [action?, List.map_cons, List.filter_cons_of_pos (by simp), others]
  rfl

/-- A step is read back: first its action, then the fields that the action asks for. -/
theorem ofTree?_record (s : Step) :
    ofTree? (.record (("action", .text s.action) :: s.fields)) = some s := by
  have haction : (Tree.text s.action).IsLeaf := ⟨rfl, rfl, Tree.printable_text s.action⟩
  have leaves : ∀ f ∈ ("action", .text s.action) :: s.fields, f.2.IsLeaf :=
    List.forall_mem_cons.mpr ⟨haction, s.isLeaf_fields⟩
  obtain ⟨hnodup, hother⟩ := s.nodup_fields
  obtain ⟨least, hnames⟩ := s.fieldNames?_action
  obtain ⟨v, hpayload⟩ := Option.isSome_iff_exists.mp
    (Payload.isSome_ofTree?_record fun f hf => (leaves f hf).isPayload)
  have hdepth := Tree.depth_record fun f hf => (leaves f hf).depth_eq
  -- The action is passed over among the members, as no field has its name.
  have hfields : Fields.ofMembers? (s.fields.map (·.1))
      ((("action", Tree.text s.action) :: s.fields).map fun (k, t) => (some k, t)) =
        some s.fields := by
    have hread := Fields.ofMembers?_record (fun f hf => List.mem_map.mpr ⟨f, hf, rfl⟩) hnodup
    simp only [List.map_cons, Fields.ofMembers?, hread]
    simp [hother]
  -- A step has no parts within its parts, which is far from too deep.
  have hguard : guard (Tree.depth (.record (("action", .text s.action) :: s.fields)) ≤ depthLimit) =
      some () := by
    rw [hdepth]
    rfl
  refine Option.bind_eq_some_iff.mpr ⟨(), hguard, ?_⟩
  refine Option.bind_eq_some_iff.mpr ⟨v, hpayload, ?_⟩
  refine Option.bind_eq_some_iff.mpr ⟨_, action?_record s.action hother, ?_⟩
  refine Option.bind_eq_some_iff.mpr ⟨_, hnames, ?_⟩
  exact Option.bind_eq_some_iff.mpr ⟨_, hfields, s.ofFields?_fields⟩

end Scenario.Step

instance : LawfulJsonForm Scenario.Step where
  printable s := by
    refine Tree.printable_record (List.forall_mem_cons.mpr ⟨Tree.printable_text s.action, ?_⟩)
    exact fun f hf => (s.isLeaf_fields f hf).printable
  ofTree?_toTree := Scenario.Step.ofTree?_record

instance : LawfulJsonForm Scenario where
  printable s := by
    refine Tree.printable_record ?_
    simp only [List.forall_mem_cons]
    exact ⟨printable s.startTime, printable s.steps, by simp⟩
  ofTree?_toTree s := by
    refine Option.bind_eq_some_iff.mpr ⟨_, Fields.ofTree?_record rfl (by decide), ?_⟩
    exact optional_bind rfl (required_bind rfl rfl)

/-- What is written for a configuration or a script is read back as the same, and it is a JSON text
with the tokens of its tree. -/
theorem saved_files_load_back :
    (∀ c : Node.Config, Json.Spelled (toTree c).tokens (writeJson c).toList ∧
      readJson? (writeJson c) = some c) ∧
    (∀ s : Scenario, Json.Spelled (toTree s).tokens (writeJson s).toList ∧
      readJson? (writeJson s) = some s) :=
  ⟨fun c => ⟨spelled_writeJson c, readJson?_writeJson c⟩,
    fun s => ⟨spelled_writeJson s, readJson?_writeJson s⟩⟩

end ReportQuorum
