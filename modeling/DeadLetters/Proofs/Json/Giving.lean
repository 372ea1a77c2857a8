import DeadLetters.Json.Record

/-!
# What a text gives to a record

Where every field has a default, reading a record comes in two steps: the text gives values to some
of the fields, and the others take their defaults.  An object gives a value to each field that it
names, a list to as many fields as it has items.

    record.run s = .ok (a, r)  exactly when  the text gives slots that, filled in, make a
                                                                               (run_eq_ok_iff)
-/

namespace DeadLetters.Json

/-- Reads items into slots, from the item with the given index on. -/
def itemSlots (depth : Nat) : (fs : List Field) → (index : Nat) → List Char → Reading (Slots fs)
  | [], _, s => (listEnd s).map fun _ => ()
  | f :: fs, index, s =>
    match nextItem (index == 0) s with
    | .error e => .error e
    | .ok (false, r) => .ok (Slots.empty (f :: fs), r)
    | .ok (true, r) =>
      match (f.schema.reader depth).run r with
      | .error e => .error e
      | .ok (a, t) => (itemSlots depth fs (index + 1) t).map fun rest => (some a, rest)

/-- The values that a text gives to the fields of a record. -/
def Record.given {α : Type} (record : Record α) (s : List Char) : Reading (Slots record.fields) :=
  match skipGap s with
  | '[' :: r => itemSlots (depthLimit - 1) record.fields 0 r
  | '\x7b' :: r => slotMembers (depthLimit - 1) (Slots.empty record.fields) true r
  | t => leafRun record.wanted (fun v => .error (.invalidType v.found record.wanted)) t

variable {fs : List Field} {s r : List Char}

namespace Reading

variable {α β : Type} {f : α → β} {x : Reading α} {b : β}

theorem map_eq_ok_iff : x.map f = .ok (b, r) ↔ ∃ a, x = .ok (a, r) ∧ f a = b := by
  refine ⟨map_eq_ok, ?_⟩
  rintro ⟨a, rfl, rfl⟩
  rfl

end Reading

theorem map_ok_iff {ε α β : Type} {f : α → β} {x : Except ε α} {b : β} :
    x.map f = .ok b ↔ ∃ a, x = .ok a ∧ b = f a := by
  cases x <;> simp [Except.map, eq_comm]

namespace Slots

theorem row_orElse {name : String} {schema : Schema} {d : schema.Carrier}
    {slot : Option schema.Carrier} {rest : Slots fs} {r : Row fs} (h : rest.row = .ok r) :
    @row (.orElse name schema d :: fs) (slot, rest) = .ok (slot.getD d, r) := by
  have hrow : @row (.orElse name schema d :: fs) (slot, rest) =
      rest.row.map fun r => (slot.getD d, r) := by
    cases slot <;> rfl
  rw [hrow, h]
  rfl

variable {f : Field} {a : f.schema.Carrier} {rest : Slots fs} {row' : Row (f :: fs)}

theorem row_given_iff : @row (f :: fs) (some a, rest) = .ok row' ↔
    ∃ r, rest.row = .ok r ∧ row' = (a, r) :=
  map_ok_iff

theorem row_default_iff {d : f.schema.Carrier} (hd : f.default = some d) :
    @row (f :: fs) (none, rest) = .ok row' ↔ ∃ r, rest.row = .ok r ∧ row' = (d, r) := by
  rw [← row_given_iff, row, row]
  simp [hd]

end Slots

/-- Empty slots become defaults, whether a list ends early or an object leaves them out. -/
theorem defaults_eq_ok_iff (hd : ∀ f ∈ fs, f.default.isSome = true) {wanted : String} {index : Nat}
    {row : Row fs} : defaults wanted fs index = .ok row ↔ (Slots.empty fs).row = .ok row := by
  induction fs generalizing index with
  | nil => rfl
  | cons f fs ih =>
    obtain ⟨d, hf⟩ := Option.isSome_iff_exists.1 (hd f List.mem_cons_self)
    have ih := fun row => @ih (fun g hg => hd g (List.mem_cons_of_mem f hg)) (index + 1) row
    rw [Slots.empty, Slots.row_default_iff hf, defaults, hf]
    simp only [← ih]
    exact map_ok_iff

theorem rowItems_eq_ok_iff (hd : ∀ f ∈ fs, f.default.isSome = true) {depth : Nat}
    {wanted : String} {index : Nat} {row : Row fs} :
    rowItems depth wanted fs index s = .ok (row, r) ↔
      ∃ slots, itemSlots depth fs index s = .ok (slots, r) ∧ slots.row = .ok row := by
  induction fs generalizing index s with
  | nil =>
    rw [rowItems, itemSlots]
    exact ⟨fun h => ⟨(), h, rfl⟩, fun ⟨_, h, _⟩ => h⟩
  | cons f fs ih =>
    have ih := fun s index row => @ih s (fun g hg => hd g (List.mem_cons_of_mem f hg)) index row
    have hdefaults := @defaults_eq_ok_iff _ hd wanted index row
    rw [rowItems]
    simp only [itemSlots]
    rcases nextItem (index == 0) s with e | ⟨_ | _, t⟩
    · simp
    · cases hrow : defaults wanted (f :: fs) index with
      | error cause =>
        rw [hrow] at hdefaults
        refine ⟨fun h => (by cases h), ?_⟩
        rintro ⟨slots, h, hr⟩
        cases h
        cases hdefaults.2 hr
      | ok row' =>
        rw [hrow] at hdefaults
        constructor
        · intro h
          cases h
          exact ⟨_, rfl, hdefaults.1 rfl⟩
        · rintro ⟨slots, h, hr⟩
          cases h
          rw [Except.ok.inj (hdefaults.2 hr)]
    · dsimp only
      rcases (f.schema.reader depth).run t with e | ⟨a, u⟩
      · simp
      · constructor
        · intro h
          obtain ⟨rest, hrest, rfl⟩ := Reading.map_eq_ok h
          obtain ⟨slots, hslots, hr⟩ := (ih u (index + 1) rest).1 hrest
          exact ⟨_, Reading.map_eq_ok_iff.2 ⟨slots, hslots, rfl⟩,
            Slots.row_given_iff.2 ⟨rest, hr, rfl⟩⟩
        · rintro ⟨_, h, hr⟩
          obtain ⟨slots, hslots, rfl⟩ := Reading.map_eq_ok h
          obtain ⟨rest, hrest, rfl⟩ := Slots.row_given_iff.1 hr
          exact Reading.map_eq_ok_iff.2 ⟨rest, (ih u (index + 1) rest).2 ⟨slots, hslots, hrest⟩, rfl⟩

namespace Record

variable {α : Type} {record : Record α} {a : α}

theorem ne_ok_of_leafRun_error {β : Type} {wanted : String} {refuse : Value → Cause} {b : β} :
    leafRun wanted (fun v => .error (refuse v)) s ≠ .ok (b, r) := by
  intro h
  unfold leafRun at h
  split at h
  · cases h
  · cases h
  · split at h <;> cases h

/-! What is neither a list nor an object gives no values. -/

theorem run_ne_ok (hl : ∀ u, skipGap s ≠ '[' :: u) (ho : ∀ u, skipGap s ≠ '\x7b' :: u) :
    record.run s ≠ .ok (a, r) := by
  intro h
  unfold run at h
  split at h
  · next hs => exact hl _ hs
  · next hs => exact ho _ hs
  · exact ne_ok_of_leafRun_error h

theorem given_ne_ok {slots : Slots record.fields} (hl : ∀ u, skipGap s ≠ '[' :: u)
    (ho : ∀ u, skipGap s ≠ '\x7b' :: u) : record.given s ≠ .ok (slots, r) := by
  intro h
  unfold given at h
  split at h
  · next hs => exact hl _ hs
  · next hs => exact ho _ hs
  · exact ne_ok_of_leafRun_error h

/-- A record is read by giving values to some of its fields, and defaults to the others. -/
theorem run_eq_ok_iff (hd : ∀ f ∈ record.fields, f.default.isSome = true) :
    record.run s = .ok (a, r) ↔
      ∃ slots row, record.given s = .ok (slots, r) ∧ slots.row = .ok row ∧ a = record.ofRow row := by
  by_cases hl : ∃ u, skipGap s = '[' :: u
  · obtain ⟨u, hu⟩ := hl
    simp only [run, given, hu]
    constructor
    · intro h
      obtain ⟨row, hrow, rfl⟩ := Reading.map_eq_ok h
      obtain ⟨slots, hslots, hr⟩ := (rowItems_eq_ok_iff hd).1 hrow
      exact ⟨slots, row, hslots, hr, rfl⟩
    · rintro ⟨slots, row, hslots, hr, rfl⟩
      exact Reading.map_eq_ok_iff.2 ⟨row, (rowItems_eq_ok_iff hd).2 ⟨slots, hslots, hr⟩, rfl⟩
  by_cases ho : ∃ u, skipGap s = '\x7b' :: u
  · obtain ⟨u, hu⟩ := ho
    simp only [run, given, hu]
    rcases slotMembers (depthLimit - 1) (Slots.empty record.fields) true u with e | ⟨slots, v⟩
    · simp
    · dsimp only
      cases hrow : slots.row with
      | error cause =>
        refine ⟨fun h => (by cases h), ?_⟩
        rintro ⟨_, row, h, hr, -⟩
        cases h
        rw [hrow] at hr
        cases hr
      | ok row =>
        constructor
        · intro h
          cases h
          exact ⟨slots, row, rfl, hrow, rfl⟩
        · rintro ⟨_, row', h, hr, rfl⟩
          cases h
          rw [hrow] at hr
          cases hr
          rfl
  · have hl := not_exists.1 hl
    have ho := not_exists.1 ho
    refine iff_of_false (run_ne_ok hl ho) ?_
    rintro ⟨slots, row, h, -⟩
    exact given_ne_ok hl ho h

end Record

end DeadLetters.Json
