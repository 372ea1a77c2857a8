import DeadLetters.Proofs.Entries
import DeadLetters.Proofs.Json.Parts

/-!
# What is known of values that were read

A value that was read keeps within the depth that was allowed, its objects are in order, and its
integers have 64 bits.

    (value d).run s = .ok (v, r) → v.Sound d                                    (sound_value)
-/

namespace DeadLetters

namespace Json

namespace Value

/-- Induction over the parts of a value. -/
@[elab_as_elim]
theorem induction {P : Value → Prop} (null : P .null) (bool : ∀ b, P (.bool b))
    (number : ∀ n, P (.number n)) (string : ∀ s, P (.string s))
    (array : ∀ items, (∀ v ∈ items, P v) → P (.array items))
    (object : ∀ members, (∀ m ∈ members, P m.2) → P (.object members)) (v : Value) : P v :=
  @Value.rec P (fun items => ∀ v ∈ items, P v) (fun members => ∀ m ∈ members, P m.2)
    (fun m => P m.2) null bool number string array object (by simp)
    (fun _ _ hv hvs => List.forall_mem_cons.2 ⟨hv, hvs⟩) (by simp)
    (fun _ _ hm hms => List.forall_mem_cons.2 ⟨hm, hms⟩) (fun _ _ hv => hv) v

end Value

mutual

/-- All numbers inside the value have a property. -/
def Value.All (p : Number → Prop) : Value → Prop
  | .number n => p n
  | .array items => AllItems p items
  | .object members => AllMembers p members
  | _ => True

def AllItems (p : Number → Prop) : List Value → Prop
  | [] => True
  | v :: vs => v.All p ∧ AllItems p vs

def AllMembers (p : Number → Prop) : List (String × Value) → Prop
  | [] => True
  | m :: ms => m.2.All p ∧ AllMembers p ms

end

mutual

def Value.depth : Value → Nat
  | .array items => itemsDepth items + 1
  | .object members => membersDepth members + 1
  | _ => 0

def itemsDepth : List Value → Nat
  | [] => 0
  | v :: vs => max v.depth (itemsDepth vs)

def membersDepth : List (String × Value) → Nat
  | [] => 0
  | m :: ms => max m.2.depth (membersDepth ms)

end

theorem allItems_iff {p : Number → Prop} {vs : List Value} :
    AllItems p vs ↔ ∀ v ∈ vs, v.All p := by
  induction vs with
  | nil => simp [AllItems]
  | cons v vs ih => simp [AllItems, ih]

theorem allMembers_iff {p : Number → Prop} {ms : List (String × Value)} :
    AllMembers p ms ↔ ∀ m ∈ ms, m.2.All p := by
  induction ms with
  | nil => simp [AllMembers]
  | cons m ms ih => simp only [AllMembers, ih, List.forall_mem_cons]

theorem Value.all_of_forall {p : Number → Prop} (h : ∀ n, p n) (v : Value) : v.All p := by
  induction v using Value.induction with
  | null | bool | string => trivial
  | number n => exact h n
  | array vs ih => exact allItems_iff.2 ih
  | object ms ih => exact allMembers_iff.2 ih

theorem wellFormedItems_iff {vs : List Value} :
    WellFormedItems vs ↔ ∀ v ∈ vs, v.WellFormed := by
  induction vs with
  | nil => simp [WellFormedItems]
  | cons v vs ih => simp [WellFormedItems, ih]

theorem wellFormedMembers_iff {ms : List (String × Value)} :
    WellFormedMembers ms ↔ ∀ m ∈ ms, m.2.WellFormed := by
  induction ms with
  | nil => simp [WellFormedMembers]
  | cons m ms ih => simp only [WellFormedMembers, ih, List.forall_mem_cons]

theorem itemsDepth_le_iff {vs : List Value} {d : Nat} :
    itemsDepth vs ≤ d ↔ ∀ v ∈ vs, v.depth ≤ d := by
  induction vs with
  | nil => simp [itemsDepth]
  | cons v vs ih => simp only [itemsDepth, Nat.max_le, ih, List.forall_mem_cons]

theorem membersDepth_le_iff {ms : List (String × Value)} {d : Nat} :
    membersDepth ms ≤ d ↔ ∀ m ∈ ms, m.2.depth ≤ d := by
  induction ms with
  | nil => simp [membersDepth]
  | cons m ms ih => simp only [membersDepth, Nat.max_le, ih, List.forall_mem_cons]

mutual

/-- Whether all numbers inside a value have a property. -/
def Value.decideAll (p : Number → Prop) [DecidablePred p] : (v : Value) → Decidable (v.All p)
  | .number n => inferInstanceAs (Decidable (p n))
  | .array items => decideAllItems p items
  | .object members => decideAllMembers p members
  | .null | .bool _ | .string _ => inferInstanceAs (Decidable True)

def decideAllItems (p : Number → Prop) [DecidablePred p] :
    (vs : List Value) → Decidable (AllItems p vs)
  | [] => inferInstanceAs (Decidable True)
  | v :: vs =>
    have := v.decideAll p
    have := decideAllItems p vs
    inferInstanceAs (Decidable (_ ∧ _))

def decideAllMembers (p : Number → Prop) [DecidablePred p] :
    (ms : List (String × Value)) → Decidable (AllMembers p ms)
  | [] => inferInstanceAs (Decidable True)
  | m :: ms =>
    have := m.2.decideAll p
    have := decideAllMembers p ms
    inferInstanceAs (Decidable (_ ∧ _))

end

instance (p : Number → Prop) [DecidablePred p] (v : Value) : Decidable (v.All p) := v.decideAll p

theorem Value.All.mono {p q : Number → Prop} {v : Value} (h : v.All p) (hpq : ∀ n, p n → q n) :
    v.All q := by
  induction v using Value.induction with
  | null | bool | string => trivial
  | number n => exact hpq n h
  | array vs ih =>
    exact allItems_iff.2 fun v hv => ih v hv (allItems_iff.1 h v hv)
  | object ms ih =>
    exact allMembers_iff.2 fun m hm => ih m hm (allMembers_iff.1 h m hm)

/-! ## Values that were read -/

/-- An integer has 64 bits; doubles are bounded already. -/
def Number.Fits : Number → Prop
  | .int i => Json.Fits i
  | .float _ => True

/-- An integer of 64 bits. -/
def Number.Integral : Number → Prop
  | .int i => Json.Fits i
  | .float _ => False

instance : DecidablePred Number.Integral
  | .int i => inferInstanceAs (Decidable (Json.Fits i))
  | .float _ => inferInstanceAs (Decidable False)

theorem Number.Integral.fits : ∀ {n : Number}, n.Integral → n.Fits
  | .int _, h => h

/-- What holds of a value if the text that it was read from allowed depth `d`. -/
structure Value.Sound (d : Nat) (v : Value) : Prop where
  depth_le : v.depth ≤ d
  wellFormed : v.WellFormed
  fits : v.All Number.Fits

theorem Value.sound_array_iff {d : Nat} {vs : List Value} :
    (Value.array vs).Sound (d + 1) ↔ ∀ v ∈ vs, v.Sound d := by
  constructor
  · rintro ⟨hd, hw, hf⟩ v hv
    exact ⟨itemsDepth_le_iff.1 (Nat.le_of_succ_le_succ hd) v hv, wellFormedItems_iff.1 hw v hv,
      allItems_iff.1 hf v hv⟩
  · intro h
    exact ⟨Nat.succ_le_succ (itemsDepth_le_iff.2 fun v hv => (h v hv).depth_le),
      wellFormedItems_iff.2 fun v hv => (h v hv).wellFormed,
      allItems_iff.2 fun v hv => (h v hv).fits⟩

theorem Value.sound_object_iff {d : Nat} {ms : List (String × Value)} :
    (Value.object ms).Sound (d + 1) ↔ Entries.Sorted ms ∧ ∀ m ∈ ms, m.2.Sound d := by
  constructor
  · rintro ⟨hd, ⟨hs, hw⟩, hf⟩
    exact ⟨hs, fun m hm => ⟨membersDepth_le_iff.1 (Nat.le_of_succ_le_succ hd) m hm,
      wellFormedMembers_iff.1 hw m hm, allMembers_iff.1 hf m hm⟩⟩
  · rintro ⟨hs, h⟩
    exact ⟨Nat.succ_le_succ (membersDepth_le_iff.2 fun m hm => (h m hm).depth_le),
      ⟨hs, wellFormedMembers_iff.2 fun m hm => (h m hm).wellFormed⟩,
      allMembers_iff.2 fun m hm => (h m hm).fits⟩

/-- How a value of depth `d` has been read from the text `s`, in front of `r`. -/
inductive ValueAt (d : Nat) (s : List Char) : Value → List Char → Prop
  | array {e : Nat} {t r : List Char} {vs : List Value} (hd : d = e + 1)
      (hs : skipGap s = '[' :: t) (h : ItemsAt (Reads (value e) some) true t vs r) :
      ValueAt d s (.array vs) r
  | object {e : Nat} {t r : List Char} {ms : List (String × Value)} (hd : d = e + 1)
      (hs : skipGap s = '\x7b' :: t) (h : MembersAt (Reads (value e) some) true t ms r) :
      ValueAt d s (.object (Entries.ofList ms)) r
  | scalar {r : List Char} {v : Value} (hl : ∀ t, skipGap s ≠ '[' :: t)
      (ho : ∀ t, skipGap s ≠ '\x7b' :: t) (h : scalar (skipGap s) = .ok (v, r)) : ValueAt d s v r

theorem valueAt_of_value {d : Nat} {s r : List Char} {v : Value}
    (h : (value d).run s = .ok (v, r)) : ValueAt d s v r := by
  cases d with
  | zero =>
    change valueWith none s = _ at h
    unfold valueWith at h
    split at h
    · contradiction
    · contradiction
    · simp [unfit] at h
    · simp [unfit] at h
    · next h₁ h₂ h₃ h₄ => exact .scalar (fun t ht => h₃ t ht rfl) (fun t ht => h₄ t ht rfl) h
  | succ e =>
    change valueWith (some (value e)) s = _ at h
    unfold valueWith at h
    split at h
    · next hs hi =>
      cases hi
      obtain ⟨vs, hvs, rfl⟩ := Reading.map_eq_ok h
      exact .array rfl hs (itemsAt_of_items hvs)
    · next hs hi =>
      cases hi
      obtain ⟨ms, hms, rfl⟩ := Reading.map_eq_ok h
      exact .object rfl hs (membersAt_of_members hms)
    · contradiction
    · contradiction
    · next h₁ h₂ h₃ h₄ =>
      exact .scalar (fun t ht => h₁ t _ ht rfl) (fun t ht => h₂ t _ ht rfl) h

theorem fits_evaluate {n : Numeral} {s r : List Char} {x : Number}
    (h : n.evaluate s = .ok (x, r)) : x.Fits := by
  rcases evaluate_cases h with ⟨y, rfl⟩ | ⟨i, rfl, hi, -⟩
  · trivial
  · exact hi

theorem fits_numberText {s r : List Char} {x : Number} (h : numberText s = .ok (x, r)) :
    x.Fits := by
  unfold numberText at h
  split at h
  · simp at h
  · exact fits_evaluate h

theorem sound_scalar {d : Nat} {s r : List Char} {v : Value} (h : scalar s = .ok (v, r)) :
    v.Sound d := by
  unfold scalar at h
  split at h
  · simp [stopped] at h
  · obtain ⟨-, -, rfl⟩ := Reading.map_eq_ok h
    exact ⟨Nat.zero_le _, trivial, trivial⟩
  · obtain ⟨-, -, rfl⟩ := Reading.map_eq_ok h
    exact ⟨Nat.zero_le _, trivial, trivial⟩
  · obtain ⟨-, -, rfl⟩ := Reading.map_eq_ok h
    exact ⟨Nat.zero_le _, trivial, trivial⟩
  · obtain ⟨-, -, rfl⟩ := Reading.map_eq_ok h
    exact ⟨Nat.zero_le _, trivial, trivial⟩
  · split at h
    · obtain ⟨n, hn, rfl⟩ := Reading.map_eq_ok h
      exact ⟨Nat.zero_le _, trivial, fits_numberText hn⟩
    · simp [unfit] at h

theorem sound_value {d : Nat} {s r : List Char} {v : Value} (h : (value d).run s = .ok (v, r)) :
    v.Sound d := by
  induction d using Nat.strongRecOn generalizing s r v with
  | _ d ih =>
    cases valueAt_of_value h with
    | @array e t _ vs hd hs hitems =>
      rw [hd, Value.sound_array_iff]
      exact hitems.forall_mem fun t a u ha => ih e (by omega) (reads_some_iff.1 ha)
    | @object e t _ ms hd hs hmembers =>
      have all := hmembers.forall_mem fun t a u ha => ih e (by omega) (reads_some_iff.1 ha)
      rw [hd, Value.sound_object_iff]
      exact ⟨Entries.sorted_ofList ms, fun m hm => all m (Entries.mem_of_mem_ofList hm)⟩
    | scalar hl ho hscalar => exact sound_scalar hscalar

end Json

end DeadLetters
