import ReportQuorum.Payload
import ReportQuorum.Proofs.Encoding

/-!
# What the digest of a payload tells

The binary form of a payload does not say what kinds of values it holds. Hence different payloads
may have one form, and then they have one digest: a list of a null has the form of the number one.

Such payloads differ in kind where they first differ. As long as the values at the first place
where two payloads differ are of one kind, their forms differ, whatever follows them, and so do
their digests unless the hash function collides on them.

## Main definitions

* `Payload.Fits`: all lengths in a payload are words
* `Payload.Kindred`: two payloads are of one kind up to the first place where they differ

## Main results

* `Payload.bytes_append_inj`: payloads of one kind are known from their forms
* `Payload.digest_distinguishes_kindred`: hence different ones have different digests
* `Payload.digest_confuses_kinds`: payloads that differ in kind may have one digest
-/

namespace ReportQuorum.Payload

/-! ### Lengths -/

mutual

/-- All lengths in a payload are words. -/
def Fits : Payload → Prop
  | .string s => (Text.utf8 s).length < UInt64.size
  | .array items => items.length < UInt64.size ∧ ItemsFit items
  | .object members => members.length < UInt64.size ∧ MembersFit members
  | _ => True

/-- All lengths in the items of an array are words. -/
def ItemsFit : List Payload → Prop
  | [] => True
  | v :: vs => Fits v ∧ ItemsFit vs

/-- All lengths in the members of an object are words. -/
def MembersFit : List (String × Payload) → Prop
  | [] => True
  | (k, v) :: ms => (Text.utf8 k).length < UInt64.size ∧ Fits v ∧ MembersFit ms

end

/-! ### Kinds -/

/-- Two numbers are stored alike. -/
def Number.Kindred : Number → Number → Prop
  | .natural _, .natural _ => True
  | .negative _, .negative _ => True
  | .real _, .real _ => True
  | _, _ => False

mutual

/-- Two payloads are of one kind up to the first place where they differ, in the order of their
binary forms. Nothing is asked of what comes after that place. -/
def Kindred : Payload → Payload → Prop
  | .null, .null => True
  | .bool _, .bool _ => True
  | .number m, .number n => m.Kindred n
  | .string _, .string _ => True
  -- Lengths come first, so lists of different lengths differ there.
  | .array vs, .array ws => vs.length = ws.length → KindredItems vs ws
  | .object ms, .object ns => ms.length = ns.length → KindredMembers ms ns
  | _, _ => False

/-- The same of the items of two arrays of one length. -/
def KindredItems : List Payload → List Payload → Prop
  | v :: vs, w :: ws => Kindred v w ∧ (v = w → KindredItems vs ws)
  | _, _ => True

/-- The same of the members of two objects with equally many of them. -/
def KindredMembers : List (String × Payload) → List (String × Payload) → Prop
  | (k, v) :: ms, (l, w) :: ns => k = l → Kindred v w ∧ (v = w → KindredMembers ms ns)
  | _, _ => True

end

/-! ### Forms of one kind -/

/-- A number is known from its form among those that are stored alike. -/
theorem Number.bytes_append_inj {m n : Number} {s t : List UInt8} (hk : m.Kindred n)
    (h : m.bytes ++ s = n.bytes ++ t) : m = n ∧ s = t := by
  cases m <;> cases n <;> simp only [Number.Kindred] at hk
  case natural.natural a b =>
    obtain ⟨rfl, hrest⟩ := Word.bytes_append_inj h
    exact ⟨rfl, hrest⟩
  case negative.negative a b =>
    -- A negative number is stored as the word with its bits.
    obtain ⟨hword, hrest⟩ := Word.bytes_append_inj h
    exact ⟨congrArg Number.negative (Int64.toBitVec_inj.mp (congrArg UInt64.toBitVec hword)), hrest⟩
  case real.real a b =>
    obtain ⟨rfl, hrest⟩ := Word.bytes_append_inj h
    exact ⟨rfl, hrest⟩

mutual

/-- Among payloads of one kind, a payload is known from its form and what follows it. -/
theorem bytes_append_inj : ∀ {v w : Payload} {s t : List UInt8}, v.Fits → w.Fits → Kindred v w →
    bytes v ++ s = bytes w ++ t → v = w ∧ s = t
  | .null, w, s, t, _, _, hk, h => by
    cases w <;> simp only [Kindred] at hk
    exact ⟨rfl, h⟩
  | .bool a, w, s, t, _, _, hk, h => by
    cases w <;> simp only [Kindred] at hk
    case bool b => cases a <;> cases b <;> simp_all [bytes, toBytes]
  | .number m, w, s, t, _, _, hk, h => by
    cases w <;> simp only [Kindred] at hk
    obtain ⟨rfl, hrest⟩ := Number.bytes_append_inj hk h
    exact ⟨rfl, hrest⟩
  | .string a, w, s, t, hv, hw, hk, h => by
    cases w <;> simp only [Kindred] at hk
    obtain ⟨rfl, hrest⟩ := Binary.textBytes_append_inj hv hw h
    exact ⟨rfl, hrest⟩
  | .array vs, w, s, t, hv, hw, hk, h => by
    cases w <;> simp only [Kindred] at hk
    case array ws =>
      rw [bytes, bytes, List.append_assoc, List.append_assoc] at h
      obtain ⟨hlength, hitems⟩ := Binary.lengthBytes_append_inj hv.1 hw.1 h
      obtain ⟨rfl, hrest⟩ := itemBytes_append_inj hlength hv.2 hw.2 (hk hlength) hitems
      exact ⟨rfl, hrest⟩
  | .object ms, w, s, t, hv, hw, hk, h => by
    cases w <;> simp only [Kindred] at hk
    case object ns =>
      rw [bytes, bytes, List.append_assoc, List.append_assoc] at h
      obtain ⟨hlength, hmembers⟩ := Binary.lengthBytes_append_inj hv.1 hw.1 h
      obtain ⟨rfl, hrest⟩ := memberBytes_append_inj hlength hv.2 hw.2 (hk hlength) hmembers
      exact ⟨rfl, hrest⟩

/-- Equally many items of one kind are known from their forms and what follows them. -/
theorem itemBytes_append_inj : ∀ {vs ws : List Payload} {s t : List UInt8}, vs.length = ws.length →
    ItemsFit vs → ItemsFit ws → KindredItems vs ws →
    itemBytes vs ++ s = itemBytes ws ++ t → vs = ws ∧ s = t
  | [], [], _, _, _, _, _, _, h => ⟨rfl, h⟩
  | v :: vs, w :: ws, s, t, hlength, hv, hw, hk, h => by
    rw [itemBytes, itemBytes, List.append_assoc, List.append_assoc] at h
    obtain ⟨rfl, htail⟩ := bytes_append_inj hv.1 hw.1 hk.1 h
    obtain ⟨rfl, hrest⟩ :=
      itemBytes_append_inj (Nat.succ.inj hlength) hv.2 hw.2 (hk.2 rfl) htail
    exact ⟨rfl, hrest⟩

/-- Equally many members of one kind are known from their forms and what follows them. -/
theorem memberBytes_append_inj : ∀ {ms ns : List (String × Payload)} {s t : List UInt8},
    ms.length = ns.length → MembersFit ms → MembersFit ns → KindredMembers ms ns →
    memberBytes ms ++ s = memberBytes ns ++ t → ms = ns ∧ s = t
  | [], [], _, _, _, _, _, _, h => ⟨rfl, h⟩
  | (k, v) :: ms, (l, w) :: ns, s, t, hlength, hv, hw, hk, h => by
    rw [memberBytes, memberBytes] at h
    simp only [List.append_assoc] at h
    obtain ⟨rfl, hvalue⟩ := Binary.textBytes_append_inj hv.1 hw.1 h
    obtain ⟨hhead, hmore⟩ := hk rfl
    obtain ⟨rfl, htail⟩ := bytes_append_inj hv.2.1 hw.2.1 hhead hvalue
    obtain ⟨rfl, hrest⟩ :=
      memberBytes_append_inj (Nat.succ.inj hlength) hv.2.2 hw.2.2 (hmore rfl) htail
    exact ⟨rfl, hrest⟩

end

/-- Different payloads of one kind up to their first difference have different forms, neither of
which begins with the other, and different digests unless the hash function collides on them. -/
theorem digest_distinguishes_kindred (v w : Payload) (hv : v.Fits) (hw : w.Fits)
    (hk : Kindred v w) (hne : v ≠ w) :
    toBytes v ≠ toBytes w ∧ (∀ s t, toBytes v ++ s ≠ toBytes w ++ t) ∧
      ((Blake3.hash (toBytes v) = Blake3.hash (toBytes w) → toBytes v = toBytes w) →
        digest v ≠ digest w) := by
  have apart : ∀ s t, toBytes v ++ s ≠ toBytes w ++ t :=
    fun s t h => hne (bytes_append_inj hv hw hk h).1
  have forms : toBytes v ≠ toBytes w := by
    intro h
    exact apart [] [] (by rw [h])
  exact ⟨forms, apart, fun collisionFree h => forms (collisionFree h)⟩

/-- Two objects that first differ in the number under a key. -/
theorem digest_distinguishes_numbers :
    let v : Payload := .object [("a", .number (.natural 1)), ("b", .null)]
    let w : Payload := .object [("a", .number (.natural 2)), ("b", .bool true)]
    v.Fits ∧ w.Fits ∧ Kindred v w ∧ v ≠ w ∧ toBytes v ≠ toBytes w := by
  intro v w
  have hv : v.Fits := by simp [v, Fits, MembersFit, Text.utf8]; decide
  have hw : w.Fits := by simp [w, Fits, MembersFit, Text.utf8]; decide
  have hk : Kindred v w := by simp [v, w, Kindred, KindredMembers, Number.Kindred]
  have hne : v ≠ w := by simp [v, w]
  exact ⟨hv, hw, hk, hne, (digest_distinguishes_kindred v w hv hw hk hne).1⟩

/-- The form does not tell a list of a null from the number one, nor does the digest. -/
theorem digest_confuses_kinds :
    parse? "[null]" = some (.array [.null]) ∧ parse? "1" = some (.number (.natural 1)) ∧
      Payload.array [.null] ≠ .number (.natural 1) ∧
      toBytes (Payload.array [.null]) = toBytes (Payload.number (.natural 1)) ∧
      digest (Payload.array [.null]) = digest (Payload.number (.natural 1)) := by
  have forms : toBytes (Payload.array [.null]) = toBytes (Payload.number (.natural 1)) := by
    decide
  exact ⟨by cbv, by cbv, by simp, forms, congrArg Blake3.hash forms⟩

end ReportQuorum.Payload
