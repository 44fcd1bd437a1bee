import Mathlib
import ReportQuorum.Payload
import ReportQuorum.Proofs.JsonTrees

/-!
# The layout of a payload does not count

Members who make the same report may write it differently: with other blanks, with other escapes in
its strings, and with the members of its objects in another order. They vote for the same digest all
the same. Blanks and escapes are gone once a text is read as a tree. The order of members is gone
once the tree is read as a payload, for members are put at their places by their keys, and two of
them with different keys may be put there in either order. Members with the same key may not, so
nothing is said of objects with such members in another order.

## Main definitions

* `Json.Tree.Reordered`: two trees differ at most in the order of members
* `Json.Alike`: two texts differ at most in blanks, escapes and the order of members

## Main results

* `Payload.ordered_perm`: members with different keys end up in the same order
* `Payload.ofTree?_of_reordered`: reordered trees stand for the same payload
* `Payload.digest_forgets_layout`: alike texts have the same digest
-/

namespace ReportQuorum

namespace Json

/-- Two trees differ at most in the order of the members of objects, at any depth. -/
inductive Tree.Reordered : Tree → Tree → Prop
  | refl (t : Tree) : Reordered t t
  | trans {t u v : Tree} (htu : Reordered t u) (huv : Reordered u v) : Reordered t v
  | item (before : List Tree) {t u : Tree} (after : List Tree) (h : Reordered t u) :
    Reordered (.array (before ++ t :: after)) (.array (before ++ u :: after))
  | member (before : List (Text × Tree)) (k : Text) {t u : Tree} (after : List (Text × Tree))
    (h : Reordered t u) :
    Reordered (.object (before ++ (k, t) :: after)) (.object (before ++ (k, u) :: after))
  /-- No two of the members have the same key. -/
  | members {ms ns : List (Text × Tree)} (h : ms.Perm ns) (hkeys : (ms.map (·.1)).Nodup) :
    Reordered (.object ms) (.object ns)

/-- Two texts differ at most in blanks, in the spelling of strings and in the order of the members
of objects. -/
def Alike (s s' : String) : Prop :=
  ∃ t t' : Tree, Spelled t.tokens s.toList ∧ Spelled t'.tokens s'.toList ∧ t.Reordered t'

/-! ### Depth -/

namespace Tree

theorem depthItems_congr {t u : Tree} (h : t.depth = u.depth) (before after : List Tree) :
    depthItems (before ++ t :: after) = depthItems (before ++ u :: after) := by
  induction before with
  | nil => simp only [List.nil_append, depthItems, h]
  | cons b before ih => simp only [List.cons_append, depthItems, ih]

theorem depthMembers_congr {t u : Tree} (h : t.depth = u.depth) (before : List (Text × Tree))
    (k : Text) (after : List (Text × Tree)) :
    depthMembers (before ++ (k, t) :: after) = depthMembers (before ++ (k, u) :: after) := by
  induction before with
  | nil => simp only [List.nil_append, depthMembers, h]
  | cons b before ih => simp only [List.cons_append, depthMembers, ih]

theorem depthMembers_perm {ms ns : List (Text × Tree)} (h : ms.Perm ns) :
    depthMembers ms = depthMembers ns := by
  induction h with
  | nil => rfl
  | cons m _ ih => rw [depthMembers, depthMembers, ih]
  | swap m n ms => simp only [depthMembers, Nat.max_left_comm]
  | trans _ _ ih₁ ih₂ => rw [ih₁, ih₂]

/-- Reordered trees are nested equally deeply. -/
theorem depth_of_reordered {t u : Tree} (h : t.Reordered u) : t.depth = u.depth := by
  induction h with
  | refl => rfl
  | trans _ _ ih₁ ih₂ => rw [ih₁, ih₂]
  | item before after _ ih => rw [depth, depth, depthItems_congr ih]
  | member before k after _ ih => rw [depth, depth, depthMembers_congr ih]
  | members h _ => rw [depth, depth, depthMembers_perm h]

end Tree

end Json

namespace Payload

open Json (Tree Token)

/-! ### Ordered members -/

/-- Members with different keys are put at their places in either order. -/
theorem putMember_comm {k l : String} (h : k ≠ l) (v w : Payload) (ms : List (String × Payload)) :
    putMember k v (putMember l w ms) = putMember l w (putMember k v ms) := by
  induction ms with
  | nil => grind [putMember]
  | cons m ms ih =>
    obtain ⟨k', u⟩ := m
    grind [putMember]

/-- Members with different keys end up in the same order, whatever their order was. -/
theorem ordered_perm {ms ns : List (String × Payload)} (h : ms.Perm ns)
    (hkeys : (ms.map (·.1)).Nodup) : ordered ms = ordered ns := by
  refine h.foldl_eq' (fun x hx y hy acc => ?_) []
  -- Members with the same key are the same member.
  by_cases hk : x.1 = y.1
  · rw [List.inj_on_of_nodup_map hkeys hx hy hk]
  · exact putMember_comm (Ne.symm hk) y.2 x.2 acc

/-! ### Reordered trees -/

theorem ofItems?_congr {t u : Tree} (h : ofTree? t = ofTree? u) (before after : List Tree) :
    ofItems? (before ++ t :: after) = ofItems? (before ++ u :: after) := by
  induction before with
  | nil => simp only [List.nil_append, ofItems?, h]
  | cons b before ih => simp only [List.cons_append, ofItems?, ih]

theorem ofMembers?_congr {t u : Tree} (h : ofTree? t = ofTree? u)
    (before : List (Json.Text × Tree)) (k : Json.Text) (after : List (Json.Text × Tree)) :
    ofMembers? (before ++ (k, t) :: after) = ofMembers? (before ++ (k, u) :: after) := by
  induction before with
  | nil => simp only [List.nil_append, ofMembers?, h]
  | cons b before ih => simp only [List.cons_append, ofMembers?, ih]

theorem ofMembers?_cons {k : Json.Text} {t : Tree} {ms : List (Json.Text × Tree)}
    {vs : List (String × Payload)} :
    ofMembers? ((k, t) :: ms) = some vs ↔
      ∃ l v ws, k = some l ∧ ofTree? t = some v ∧ ofMembers? ms = some ws ∧ (l, v) :: ws = vs := by
  simp only [ofMembers?, bind, Option.bind_eq_some_iff, pure, Option.some.injEq]
  constructor
  · rintro ⟨l, hk, v, hv, ws, hws, he⟩
    exact ⟨l, v, ws, hk, hv, hws, he⟩
  · rintro ⟨l, v, ws, hk, hv, hws, he⟩
    exact ⟨l, hk, v, hv, ws, hws, he⟩

theorem keys_of_ofMembers? {ms : List (Json.Text × Tree)} {vs : List (String × Payload)}
    (h : ofMembers? ms = some vs) : ms.map (·.1) = (vs.map (·.1)).map some := by
  induction ms generalizing vs with
  | nil =>
    obtain rfl := Option.some.inj h
    rfl
  | cons m ms ih =>
    obtain ⟨l, v, ws, hk, -, hws, rfl⟩ := ofMembers?_cons.mp h
    rw [List.map_cons, hk, ih hws]
    rfl

/-- Members in another order stand for the same, in another order. -/
theorem ofMembers?_perm {ms ns : List (Json.Text × Tree)} {vs : List (String × Payload)}
    (h : ms.Perm ns) (hvs : ofMembers? ms = some vs) :
    ∃ ws, ofMembers? ns = some ws ∧ vs.Perm ws := by
  induction h generalizing vs with
  | nil => exact ⟨vs, hvs, .refl vs⟩
  | cons m _ ih =>
    obtain ⟨l, v, us, hk, hv, hus, rfl⟩ := ofMembers?_cons.mp hvs
    obtain ⟨ws, hws, hperm⟩ := ih hus
    exact ⟨(l, v) :: ws, ofMembers?_cons.mpr ⟨l, v, ws, hk, hv, hws, rfl⟩, hperm.cons (l, v)⟩
  | swap m n ms =>
    obtain ⟨l, v, us, hk, hv, hus, rfl⟩ := ofMembers?_cons.mp hvs
    obtain ⟨l', v', ws, hk', hv', hws, rfl⟩ := ofMembers?_cons.mp hus
    have hm := ofMembers?_cons.mpr ⟨l, v, ws, hk, hv, hws, rfl⟩
    have hn := ofMembers?_cons.mpr ⟨l', v', _, hk', hv', hm, rfl⟩
    exact ⟨(l', v') :: (l, v) :: ws, hn, .swap ..⟩
  | trans _ _ ih₁ ih₂ =>
    obtain ⟨us, hus, hperm₁⟩ := ih₁ hvs
    obtain ⟨ws, hws, hperm₂⟩ := ih₂ hus
    exact ⟨ws, hws, hperm₁.trans hperm₂⟩

/-- Objects with their members in another order stand for the same payload. -/
theorem ofTree?_object_perm {ms ns : List (Json.Text × Tree)} (h : ms.Perm ns)
    (hkeys : (ms.map (·.1)).Nodup) : ofTree? (.object ms) = ofTree? (.object ns) := by
  rw [ofTree?, ofTree?]
  cases hvs : ofMembers? ms with
  -- An object is refused for one of its members, wherever that stands.
  | none =>
    have hnone : ofMembers? ns = none := by
      rw [Option.eq_none_iff_forall_ne_some]
      intro ws hws
      obtain ⟨vs, hsome, -⟩ := ofMembers?_perm h.symm hws
      rw [hvs] at hsome
      cases hsome
    rw [hnone]
  | some vs =>
    obtain ⟨ws, hws, hperm⟩ := ofMembers?_perm h hvs
    rw [keys_of_ofMembers? hvs] at hkeys
    rw [hws, Option.map_some, Option.map_some, ordered_perm hperm hkeys.of_map]

/-- Reordered trees stand for the same payload. -/
theorem ofTree?_of_reordered {t u : Tree} (h : t.Reordered u) : ofTree? t = ofTree? u := by
  induction h with
  | refl => rfl
  | trans _ _ ih₁ ih₂ => rw [ih₁, ih₂]
  | item before after _ ih => rw [ofTree?, ofTree?, ofItems?_congr ih]
  | member before k after _ ih => rw [ofTree?, ofTree?, ofMembers?_congr ih]
  | members h hkeys => exact ofTree?_object_perm h hkeys

/-! ### Texts -/

mutual

/-- All strings in what stands for a payload are texts. -/
theorem none_notMem_tokens : ∀ {t : Tree} {v : Payload}, ofTree? t = some v →
    .string none ∉ t.tokens
  | .null, _, _ | .bool _, _, _ | .number _, _, _ => by simp [Tree.tokens]
  | .string s, _, h => by
    obtain ⟨text, rfl, -⟩ := Option.map_eq_some_iff.mp h
    simp [Tree.tokens]
  | .array [], _, _ | .object [], _, _ => by simp [Tree.tokens]
  | .array (t :: ts), _, h => by
    obtain ⟨vs, hvs, -⟩ := Option.map_eq_some_iff.mp h
    simp only [ofItems?, bind, Option.bind_eq_some_iff] at hvs
    obtain ⟨v, hv, ws, hws, -⟩ := hvs
    simp [Tree.tokens, none_notMem_tokens hv, none_notMem_itemTokens hws]
  | .object ((k, t) :: ms), _, h => by
    obtain ⟨vs, hvs, -⟩ := Option.map_eq_some_iff.mp h
    obtain ⟨l, v, ws, rfl, hv, hws, -⟩ := ofMembers?_cons.mp hvs
    simp [Tree.tokens, none_notMem_tokens hv, none_notMem_memberTokens hws]

theorem none_notMem_itemTokens : ∀ {ts : List Tree} {vs : List Payload}, ofItems? ts = some vs →
    .string none ∉ Tree.itemTokens ts
  | [], _, _ => by simp [Tree.itemTokens]
  | t :: ts, _, h => by
    simp only [ofItems?, bind, Option.bind_eq_some_iff] at h
    obtain ⟨v, hv, ws, hws, -⟩ := h
    simp [Tree.itemTokens, none_notMem_tokens hv, none_notMem_itemTokens hws]

theorem none_notMem_memberTokens : ∀ {ms : List (Json.Text × Tree)} {vs : List (String × Payload)},
    ofMembers? ms = some vs → .string none ∉ Tree.memberTokens ms
  | [], _, _ => by simp [Tree.memberTokens]
  | (k, t) :: ms, _, h => by
    obtain ⟨l, v, ws, rfl, hv, hws, -⟩ := ofMembers?_cons.mp h
    simp [Tree.memberTokens, none_notMem_tokens hv, none_notMem_memberTokens hws]

end

theorem parse?_of_spelled {s : String} {t : Tree} (h : Json.Spelled t.tokens s.toList) :
    parse? s = if t.depth ≤ depthLimit then ofTree? t else none := by
  rw [parse?, Tree.parse?_of_spelled h]
  rfl

/-- Alike texts are read as the same payload, or are both refused. -/
theorem parse?_of_alike {s s' : String} (h : Json.Alike s s') : parse? s = parse? s' := by
  obtain ⟨t, t', ht, ht', hreordered⟩ := h
  rw [parse?_of_spelled ht, parse?_of_spelled ht', Tree.depth_of_reordered hreordered,
    ofTree?_of_reordered hreordered]

/-- In a text that is accepted the tokens of a tree are written, so it is alike itself. -/
theorem alike_of_parse? {s : String} {v : Payload} (h : parse? s = some v) : Json.Alike s s := by
  obtain ⟨t, ht, hv⟩ := Option.bind_eq_some_iff.mp h
  split_ifs at hv
  have hspelled := Tree.spelled_of_parse? ht (none_notMem_tokens hv)
  exact ⟨t, t, hspelled, hspelled, .refl t⟩

/-- A text that is accepted is alike itself, and every text alike it is accepted as well and has the
same digest. -/
theorem digest_forgets_layout {s : String} {v : Payload} (h : parse? s = some v) :
    Json.Alike s s ∧
      ∀ s', Json.Alike s s' → ∃ v', parse? s' = some v' ∧ digest v' = digest v := by
  refine ⟨alike_of_parse? h, fun s' halike => ⟨v, ?_, rfl⟩⟩
  rw [← parse?_of_alike halike, h]

/-- Two layouts of one report: the members of both objects are swapped, and an escape stands for a
character of a key and for one of a text. -/
theorem digest_of_two_layouts :
    let s := "\x7b\"b\": [1, \x7b\"x\": \"A\", \"y\": null\x7d], \"a\": -5\x7d"
    let s' := "\x7b \"\\u0061\":-5,\n\"b\":[1,\x7b\"y\":null,\"x\":\"\\u0041\"\x7d]\x7d\n"
    s ≠ s' ∧ Json.Alike s s' ∧
      ∃ v v', parse? s = some v ∧ parse? s' = some v' ∧ digest v' = digest v := by
  intro s s'
  let inner : List (Json.Text × Tree) := [(some "x", .text "A"), (some "y", .null)]
  let inner' : List (Json.Text × Tree) := [(some "y", .null), (some "x", .text "A")]
  let a : Tree := .number ⟨true, 5, none, none⟩
  let b : Tree := .array [.nat 1, .object inner]
  let b' : Tree := .array [.nat 1, .object inner']
  let t : Tree := .object [(some "b", b), (some "a", a)]
  let t' : Tree := .object [(some "a", a), (some "b", b')]
  have ht : Tree.parse? s = some t := by cbv
  have ht' : Tree.parse? s' = some t' := by cbv
  have hreordered : t.Reordered t' := by
    refine .trans (.members (.swap _ _ _) (by decide)) ?_
    refine .member [(some "a", a)] (some "b") [] ?_
    refine .item [.nat 1] [] ?_
    exact .members (.swap _ _ _) (by decide)
  have halike : Json.Alike s s' := by
    refine ⟨t, t', Tree.spelled_of_parse? ht ?_, Tree.spelled_of_parse? ht' ?_, hreordered⟩
    · decide
    · decide
  obtain ⟨v, hv⟩ : ∃ v, parse? s = some v := ⟨_, by cbv⟩
  obtain ⟨v', hv', hdigest⟩ := (digest_forgets_layout hv).2 s' halike
  exact ⟨by decide, halike, v, v', hv, hv', hdigest⟩

end Payload

end ReportQuorum
