import DeadLetters.Proofs.Json.Spelling

/-!
# Values that are written and read again

A value that was read comes back from its own text as it was, except that a double may come back as
another one, or be refused because it is out of range.  Without doubles nothing is lost.

    parseValue v.text agrees with v.reread                              (toOption_parseValue_text)
    v.All Number.Integral → parseValue v.text = .ok v                       (parseValue_text)
    parseValue (stringText t) = .ok (.string t)                         (parseValue_stringText)
-/

namespace DeadLetters.Json

/-- What is read of a number that was written, if it is in range. -/
def Number.reread (n : Number) : Option Number := (n.numeral.evaluate []).toOption.map (·.1)

mutual

/-- What is read of a value that was written, if its doubles are in range. -/
def Value.reread : Value → Option Value
  | .number n => n.reread.map .number
  | .array items => (rereadItems items).map .array
  | .object members => (rereadMembers members).map .object
  | v => some v

def rereadItems : List Value → Option (List Value)
  | [] => some []
  | v :: vs => v.reread.bind fun w => (rereadItems vs).map (w :: ·)

def rereadMembers : List (String × Value) → Option (List (String × Value))
  | [] => some []
  | m :: ms => m.2.reread.bind fun w => (rereadMembers ms).map ((m.1, w) :: ·)

end

theorem rereadItems_eq (vs : List Value) : rereadItems vs = vs.mapM Value.reread := by
  induction vs with
  | nil => rfl
  | cons v vs ih =>
    rw [rereadItems, List.mapM_cons, ih]
    cases v.reread <;> cases vs.mapM Value.reread <;> rfl

theorem rereadMembers_eq (ms : List (String × Value)) :
    rereadMembers ms = ms.mapM fun m => m.2.reread.map fun w => (m.1, w) := by
  induction ms with
  | nil => rfl
  | cons m ms ih =>
    rw [rereadMembers, List.mapM_cons, ih]
    cases m.2.reread <;>
      cases ms.mapM fun m : String × Value => m.2.reread.map fun w => (m.1, w) <;> rfl

/-! ## Reading what was written -/

variable {v w : Value} {d : Nat} {r : List Char}

theorem toOption_evaluate (n : Numeral) (r : List Char) :
    (n.evaluate r).toOption = ((n.evaluate []).toOption.map (·.1)).map (·, r) := by
  simp only [Numeral.evaluate, stopped]
  repeat' split
  all_goals rfl

/-- The keys of an object come back as they were. -/
theorem keys_of_rereadMembers {ms ws : List (String × Value)} (h : rereadMembers ms = some ws) :
    ws.map (·.1) = ms.map (·.1) := by
  induction ms generalizing ws with
  | nil =>
    cases h
    rfl
  | cons m ms ih =>
    obtain ⟨w, -, hw⟩ := Option.bind_eq_some_iff.1 h
    obtain ⟨ws', hs, rfl⟩ := Option.map_eq_some_iff.1 hw
    rw [List.map_cons, List.map_cons, ih hs]

theorem sorted_of_keys {α β : Type} {es : List (String × α)} {fs : List (String × β)}
    (h : fs.map (·.1) = es.map (·.1)) (hs : Entries.Sorted es) : Entries.Sorted fs := by
  have hkeys := List.pairwise_map.2 hs
  rw [← h] at hkeys
  exact List.pairwise_map.1 hkeys

theorem value_run_scalar {s : List Char} (hl : ∀ t, skipGap s ≠ '[' :: t)
    (ho : ∀ t, skipGap s ≠ '\x7b' :: t) : (value d).run s = scalar (skipGap s) := by
  have run : ∀ inner, valueWith inner s = scalar (skipGap s) := by
    intro inner
    unfold valueWith
    split
    · next h => exact absurd h (hl _)
    · next h => exact absurd h (ho _)
    · next h => exact absurd h (hl _)
    · next h => exact absurd h (ho _)
    · rfl
  cases d <;> exact run _

theorem value_run_array {s t : List Char} (hs : skipGap s = '[' :: t) :
    (value (d + 1)).run s = (items (value d) true t).map .array := by
  show valueWith (some (value d)) s = _
  simp only [valueWith, hs]

theorem value_run_object {s t : List Char} (hs : skipGap s = '\x7b' :: t) :
    (value (d + 1)).run s =
      (members stringTail (value d) true t).map fun ms => .object (Entries.ofList ms) := by
  show valueWith (some (value d)) s = _
  simp only [valueWith, hs]

theorem reads_reread (hv : v.Sound d) (hr : EndsNumeral r) :
    Reads (value d) Value.reread (v.chars ++ r) v r := by
  induction v using Value.induction generalizing d r with
  | null =>
    cases (spelled_printed hv.fits hr).stands with
    | scalar hl ho h => rw [Reads, value_run_scalar hl ho, h]; rfl
  | bool b =>
    cases (spelled_printed hv.fits hr).stands with
    | scalar hl ho h => rw [Reads, value_run_scalar hl ho, h]; rfl
  | number n =>
    obtain ⟨hl, ho, h, -⟩ := number_append n hr
    show (Except.toOption ((value d).run (n.chars ++ r))) = (n.reread.map .number).map (·, r)
    rw [value_run_scalar hl ho, h, toOption_map, toOption_evaluate, Number.reread]
    cases (n.numeral.evaluate []).toOption <;> rfl
  | string t =>
    cases (spelled_printed hv.fits hr).stands with
    | scalar hl ho h => rw [Reads, value_run_scalar hl ho, h]; rfl
  | array vs ih =>
    have hd := hv.depth_le
    obtain ⟨e, rfl⟩ : ∃ e, d = e + 1 := ⟨d - 1, by rw [Value.depth] at hd; omega⟩
    have hs := (congrArg skipGap (chars_array_append vs r)).trans (skipGap_cons rfl _)
    have hitems := Value.sound_array_iff.1 hv
    have all : ItemsAt (Reads (value e) Value.reread) true _ vs r :=
      itemsAt_printed r (fun v _ => startsItem_chars v) fun v hv u hu =>
        ih v hv (hitems v hv) hu
    rw [Reads, value_run_array hs, toOption_map, all.toOption_items, Value.reread, rereadItems_eq]
    cases vs.mapM Value.reread <;> rfl
  | object ms ih =>
    have hd := hv.depth_le
    obtain ⟨e, rfl⟩ : ∃ e, d = e + 1 := ⟨d - 1, by rw [Value.depth] at hd; omega⟩
    have hs := (congrArg skipGap (chars_object_append ms r)).trans (skipGap_cons rfl _)
    obtain ⟨hsorted, hmembers⟩ := Value.sound_object_iff.1 hv
    have all : MembersAt (Reads (value e) Value.reread) true _ ms r :=
      membersAt_printed r fun m hm u hu =>
        ih m hm (hmembers m hm) hu
    rw [Reads, value_run_object hs, toOption_map, all.toOption_members, Value.reread,
      ← rereadMembers_eq]
    cases hm : rereadMembers ms with
    | none => rfl
    | some ws =>
      have hsame := sorted_of_keys (keys_of_rereadMembers hm) hsorted
      simp [Entries.ofList_of_sorted hsame]

/-! ## Without doubles -/

theorem reread_of_integral (h : v.All Number.Integral) : v.reread = some v := by
  induction v using Value.induction with
  | null | bool | string => rfl
  | number n =>
    cases n with
    | int i => rw [Value.reread, Number.reread, Number.numeral, evaluate_ofInt h]; rfl
    | float x => exact h.elim
  | array vs ih =>
    have all : ∀ us : List Value, (∀ v ∈ us, v.reread = some v) → rereadItems us = some us := by
      intro us
      induction us with
      | nil => exact fun _ => rfl
      | cons v us ihs =>
        intro hus
        rw [rereadItems, hus v (by simp), ihs fun u hu => hus u (by simp [hu])]
        rfl
    rw [Value.reread, all vs fun v hv => ih v hv (allItems_iff.1 h v hv)]
    rfl
  | object ms ih =>
    have all : ∀ us : List (String × Value), (∀ m ∈ us, m.2.reread = some m.2) →
        rereadMembers us = some us := by
      intro us
      induction us with
      | nil => exact fun _ => rfl
      | cons m us ihs =>
        intro hus
        rw [rereadMembers, hus m (by simp), ihs fun u hu => hus u (by simp [hu])]
        rfl
    rw [Value.reread, all ms fun m hm => ih m hm (allMembers_iff.1 h m hm)]
    rfl

/-! ## Whole texts -/

theorem toOption_eq_some_iff {ε α : Type} {x : Except ε α} {a : α} :
    x.toOption = some a ↔ x = .ok a := by
  cases x <;> simp [Except.toOption]

/-- A text is read as a value that is followed by nothing but blanks. -/
theorem toOption_parse {α : Type} {reader : Reader α} {text : String} {o : Option α}
    (h : (reader.run text.toList).toOption = o.map (·, r)) (hr : skipGap r = []) :
    (parse reader text).toOption = o := by
  unfold parse
  cases hp : reader.run text.toList with
  | error e =>
    rw [hp] at h
    cases o with
    | none => rfl
    | some a => cases h
  | ok p =>
    rw [hp] at h
    cases o with
    | none => cases h
    | some a =>
      cases h
      dsimp only
      rw [hr]
      rfl

theorem toOption_parseValue_text (hv : v.Sound depthLimit) :
    (parseValue v.text).toOption = v.reread := by
  have h := reads_reread hv endsNumeral_nil
  rw [List.append_nil] at h
  refine toOption_parse (r := []) ?_ rfl
  rwa [Value.text, String.toList_ofList]

/-- What has been parsed can be written and parsed again. -/
theorem sound_parseValue {text : String} (h : parseValue text = .ok v) : v.Sound depthLimit := by
  obtain ⟨r, hr, -⟩ := parse_eq_ok_iff.1 h
  exact sound_value hr

theorem parseValue_text (hv : v.Sound depthLimit) (hi : v.All Number.Integral) :
    parseValue v.text = .ok v := by
  rw [← toOption_eq_some_iff, toOption_parseValue_text hv, reread_of_integral hi]

theorem parseValue_stringText (t : String) : parseValue (stringText t) = .ok (.string t) :=
  parseValue_text (v := .string t) ⟨Nat.zero_le _, trivial, trivial⟩ trivial

end DeadLetters.Json
