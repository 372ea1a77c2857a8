import DeadLetters.Proofs.Json.Values
import DeadLetters.Json.Record

/-!
# What is known of records that were read

Any values inside a record are as sound as if each had been read alone: the reader of a schema
allows them one level less of nesting for each bracket around them.

    (schema.reader d).run s = .ok (a, r) → schema.Sound d a                     (sound_reader)
    record.parse text = .ok a → a has sound fields                              (sound_parse)
-/

namespace DeadLetters.Json

/-- What holds of a value of the schema if its text allowed depth `d`. -/
def Schema.Sound : (s : Schema) → Nat → s.Carrier → Prop
  | count, _, n => Nat.lt n UInt64.size
  | any, d, v => Value.Sound d v
  | nullable s, d, o => ∀ a, o = some a → s.Sound d a
  | dictionary s, d, m => 0 < d ∧ ∀ e ∈ Dictionary.entries m, s.Sound (d - 1) e.2
  | _, _, _ => True

def Row.Sound (d : Nat) : {fs : List Field} → Row fs → Prop
  | [], _ => True
  | f :: _, (a, rest) => f.schema.Sound d a ∧ Row.Sound d rest

def Slots.Sound (d : Nat) : {fs : List Field} → Slots fs → Prop
  | [], _ => True
  | f :: _, (slot, rest) => (∀ a, slot = some a → f.schema.Sound d a) ∧ Slots.Sound d rest

/-- Defaults are as good as values that were read. -/
def SoundDefaults (d : Nat) (fs : List Field) : Prop :=
  ∀ f ∈ fs, ∀ a, f.default.or f.schema.absent = some a → f.schema.Sound d a

variable {d : Nat} {s r : List Char} {fs : List Field}

theorem entries_ofList {α : Type} (es : List (String × α)) :
    (Dictionary.ofList es).entries = Entries.ofList es := by
  suffices hs : ∀ (es : List (String × α)) (m : Dictionary α),
      (es.foldl (fun d e => d.insert e.1 e.2) m).entries =
        es.foldl (fun acc e => Entries.insert e.1 e.2 acc) m.entries from hs es .empty
  intro es
  induction es with
  | nil => exact fun _ => rfl
  | cons e es ih => exact fun m => ih (m.insert e.1 e.2)

/-- What a value without parts is read as has been accepted. -/
theorem accepted_of_leafRun {α : Type} {wanted : String} {accept : Value → Except Cause α} {a : α}
    (h : leafRun wanted accept s = .ok (a, r)) : ∃ v, accept v = .ok a := by
  unfold leafRun at h
  split at h
  · cases h
  · cases h
  · split at h
    · cases h
    · next v _ _ =>
      split at h
      · next ha =>
        cases h
        exact ⟨v, ha⟩
      · cases h

theorem range_of_acceptInteger {wanted : String} {least greatest i : Int} {v : Value}
    (h : acceptInteger wanted least greatest v = .ok i) : least ≤ i ∧ i ≤ greatest := by
  unfold acceptInteger at h
  split at h
  · split at h
    · next hi =>
      cases h
      exact hi
    · cases h
  · cases h

theorem sound_dictionaryRun {α : Type} {inner : Option (Reader α)} {P : α → Prop}
    {m : Dictionary α}
    (hi : ∀ reader, inner = some reader → ∀ t a u, reader.run t = .ok (a, u) → P a)
    (h : dictionaryRun inner s = .ok (m, r)) :
    inner.isSome = true ∧ ∀ e ∈ m.entries, P e.2 := by
  unfold dictionaryRun at h
  split at h
  · next reader _ =>
    obtain ⟨ms, hms, rfl⟩ := Reading.map_eq_ok h
    have all := (membersAt_of_members hms).forall_mem fun t a u ha =>
      hi reader rfl t a u (reads_some_iff.1 ha)
    rw [entries_ofList]
    exact ⟨rfl, fun e he => all e (Entries.mem_of_mem_ofList he)⟩
  · simp [unfit] at h
  · obtain ⟨v, hv⟩ := accepted_of_leafRun h
    cases hv

/-- A value that a schema has read is sound. -/
theorem sound_reader (schema : Schema) {a : schema.Carrier}
    (h : (schema.reader d).run s = .ok (a, r)) : schema.Sound d a := by
  induction schema generalizing d s r with
  | text | bool | word32 | word64 | int64 => trivial
  | count =>
    obtain ⟨v, hv⟩ := accepted_of_leafRun h
    cases hi : acceptInteger "u64" 0 (UInt64.size - 1) v with
    | error c =>
      rw [hi] at hv
      cases hv
    | ok i =>
      rw [hi] at hv
      cases hv
      have hrange := range_of_acceptInteger hi
      change i.toNat < UInt64.size
      omega
  | any => exact sound_value h
  | nullable schema ih =>
    change nullableRun (schema.reader d) s = _ at h
    unfold nullableRun at h
    rintro a rfl
    split at h
    · obtain ⟨-, -, ha⟩ := Reading.map_eq_ok h
      cases ha
    · obtain ⟨b, hb, ha⟩ := Reading.map_eq_ok h
      cases ha
      exact ih hb
  | dictionary schema ih =>
    cases d with
    | zero =>
      change dictionaryRun none s = _ at h
      have hnone := (sound_dictionaryRun (P := schema.Sound 0) (fun _ hr => by cases hr) h).1
      cases hnone
    | succ d =>
      change dictionaryRun (some (schema.reader d)) s = _ at h
      refine ⟨Nat.succ_pos d, (sound_dictionaryRun ?_ h).2⟩
      rintro reader hr t a u ha
      cases hr
      exact ih ha

/-! ## Slots and rows -/

namespace Slots

theorem sound_empty : ∀ fs : List Field, (Slots.empty fs).Sound d
  | [] => trivial
  | _ :: fs => ⟨nofun, sound_empty fs⟩

theorem sound_fill {key : String} {slots slots' : Slots fs} (hs : slots.Sound d)
    (h : slots.fill d key s = some (.ok (slots', r))) : slots'.Sound d := by
  induction fs with
  | nil => cases h
  | cons f fs ih =>
    obtain ⟨slot, rest⟩ := slots
    obtain ⟨hslot, hrest⟩ := hs
    simp only [fill] at h
    split at h
    · split at h
      · simp only [again, stopped, Option.some.injEq] at h
        split at h <;> cases h
      · split at h
        · cases h
        · obtain ⟨a, ha, rfl⟩ := Reading.map_eq_ok (Option.some.inj h)
          refine ⟨?_, hrest⟩
          rintro b hb
          cases hb
          exact sound_reader f.schema ha
    · obtain ⟨x, hx, hm⟩ := Option.map_eq_some_iff.1 h
      obtain ⟨rest', hr, rfl⟩ := Reading.map_eq_ok hm
      exact ⟨hslot, ih hrest (hr ▸ hx)⟩

theorem sound_fillOrSkip {key : String} {slots slots' : Slots fs} (hs : slots.Sound d)
    (h : slots.fillOrSkip d key s = .ok (slots', r)) : slots'.Sound d := by
  unfold fillOrSkip at h
  split at h
  · next hx => exact sound_fill hs (h ▸ hx)
  · split at h
    · cases h
    · obtain ⟨-, -, rfl⟩ := Reading.map_eq_ok h
      exact hs

theorem sound_row {slots : Slots fs} {row : Row fs} (hd : SoundDefaults d fs)
    (hs : slots.Sound d) (h : slots.row = .ok row) : row.Sound d := by
  induction fs with
  | nil => trivial
  | cons f fs ih =>
    obtain ⟨slot, rest⟩ := slots
    obtain ⟨hslot, hrest⟩ := hs
    have hdefaults : SoundDefaults d fs := fun g hg => hd g (List.mem_cons_of_mem f hg)
    rw [Slots.row] at h
    split at h
    · cases h
    · next a ha =>
      cases hr : rest.row with
      | error c =>
        rw [hr] at h
        cases h
      | ok row' =>
        rw [hr] at h
        cases h
        refine ⟨?_, ih hdefaults hrest hr⟩
        cases slot with
        | some b =>
          cases ha
          exact hslot a rfl
        | none => exact hd f List.mem_cons_self a ha

end Slots

theorem sound_slotMembers {slots slots' : Slots fs} {first : Bool} (hs : slots.Sound d)
    (h : slotMembers d slots first s = .ok (slots', r)) : slots'.Sound d := by
  fun_induction slotMembers d slots first s with
  | case1 | case3 | case4 => cases h
  | case2 =>
    cases h
    exact hs
  | case5 slots first s r' hn key t hk slots'' u hf ih => exact ih (Slots.sound_fillOrSkip hs hf) h

theorem sound_defaults {wanted : String} {index : Nat} {row : Row fs} (hd : SoundDefaults d fs)
    (h : defaults wanted fs index = .ok row) : row.Sound d := by
  induction fs generalizing index with
  | nil => trivial
  | cons f fs ih =>
    have hdefaults : SoundDefaults d fs := fun g hg => hd g (List.mem_cons_of_mem f hg)
    rw [defaults] at h
    split at h
    · cases h
    · next a ha =>
      cases hr : defaults wanted fs (index + 1) with
      | error c =>
        rw [hr] at h
        cases h
      | ok row' =>
        rw [hr] at h
        cases h
        exact ⟨hd f List.mem_cons_self a (by rw [ha]; rfl), ih hdefaults hr⟩

theorem sound_rowItems {wanted : String} {index : Nat} {row : Row fs} (hd : SoundDefaults d fs)
    (h : rowItems d wanted fs index s = .ok (row, r)) : row.Sound d := by
  induction fs generalizing index s with
  | nil => trivial
  | cons f fs ih =>
    have hdefaults : SoundDefaults d fs := fun g hg => hd g (List.mem_cons_of_mem f hg)
    unfold rowItems at h
    split at h
    · cases h
    · split at h
      · next row' hrow =>
        cases h
        exact sound_defaults hd hrow
      · cases h
    · split at h
      · cases h
      · next ha =>
        obtain ⟨row', hr, rfl⟩ := Reading.map_eq_ok h
        exact ⟨sound_reader f.schema ha, ih hdefaults hr⟩

/-! ## Records -/

namespace Record

variable {α : Type} {record : Record α} {a : α}

theorem sound_run (hd : SoundDefaults (depthLimit - 1) record.fields)
    (h : record.run s = .ok (a, r)) :
    ∃ row, a = record.ofRow row ∧ row.Sound (depthLimit - 1) := by
  unfold run at h
  split at h
  · obtain ⟨row, hr, rfl⟩ := Reading.map_eq_ok h
    exact ⟨row, rfl, sound_rowItems hd hr⟩
  · split at h
    · cases h
    · next hm =>
      split at h
      · next row hrow =>
        cases h
        exact ⟨row, rfl, Slots.sound_row hd (sound_slotMembers (Slots.sound_empty _) hm) hrow⟩
      · cases h
  · obtain ⟨v, hv⟩ := accepted_of_leafRun h
    cases hv

/-- A record that has been read is made of sound values. -/
theorem sound_parse {text : String} (hd : SoundDefaults (depthLimit - 1) record.fields)
    (h : record.parse text = .ok a) :
    ∃ row, a = record.ofRow row ∧ row.Sound (depthLimit - 1) := by
  obtain ⟨r, hr, -⟩ := parse_eq_ok_iff.1 h
  exact sound_run hd hr

end Record

end DeadLetters.Json
