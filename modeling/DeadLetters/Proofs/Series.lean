import DeadLetters.Proofs.Metering
import Mathlib.Algebra.GroupWithZero.Nat
import Mathlib.Algebra.Order.BigOperators.Group.List
import Mathlib.Algebra.Order.Group.Nat

/-!
# Series that do not mix

Totals and tagged series stand in one table, under texts.  A name without an opening brace is never
the key of a series, and with one tag at most, whose key has no equals sign, the key of a series
tells its name and its tag; whatever the value of the tag is, a topic with commas, equals signs or
braces too.

    seriesKey n [t] = seriesKey n' [t']  exactly when  n = n' and t = t'
                                                                         (seriesKey_single_inj)
    a sample adds its value to the total of its name                       (adds_name_of_separable)
      and to the series of its name and tag                              (adds_series_of_separable)
    what is read is what has been recorded                                        (readings_exact)
-/

namespace DeadLetters

/-! ## Keys -/

theorem toList_seriesKey_single (name : String) (tag : String × String) :
    (seriesKey name [tag]).toList =
      name.toList ++ '\x7b' :: (tag.1.toList ++ '=' :: (tag.2.toList ++ ['\x7d'])) := by
  rw [seriesKey, List.map_singleton, String.intercalate_singleton]
  simp [String.toList_append]

/-- A character that stands in neither first part divides a text in one way. -/
theorem append_cons_inj_of_notMem {c : Char} {l l' r r' : List Char} (h : c ∉ l) (h' : c ∉ l') :
    l ++ c :: r = l' ++ c :: r' ↔ l = l' ∧ r = r' := by
  refine ⟨fun he => ?_, fun ⟨hl, hr⟩ => hl ▸ hr ▸ rfl⟩
  have hfirst : ∀ {l r : List Char}, c ∉ l → (l ++ c :: r).takeWhile (· != c) = l := by
    intro l r hl
    rw [List.takeWhile_append_of_pos fun d hd => by simpa using ne_of_mem_of_not_mem hd hl]
    simp
  obtain rfl : l = l' := by rw [← hfirst h (r := r), he, hfirst h']
  exact ⟨rfl, List.tail_eq_of_cons_eq (List.append_cancel_left he)⟩

section

variable {name name' : String} {tag tag' : String × String}

theorem ne_seriesKey (h : '\x7b' ∉ name.toList) (name' : String) (tags : Tags) :
    name ≠ seriesKey name' tags := by
  rintro rfl
  obtain ⟨r, hr⟩ := toList_seriesKey name' tags
  exact h (by simp [hr])

/-- The first opening brace is behind the name, the first equals sign after it behind the key of the
tag, and the value is all but the last character of the rest. -/
theorem seriesKey_single_inj (hn : '\x7b' ∉ name.toList) (hn' : '\x7b' ∉ name'.toList)
    (ht : '=' ∉ tag.1.toList) (ht' : '=' ∉ tag'.1.toList) :
    seriesKey name [tag] = seriesKey name' [tag'] ↔ name = name' ∧ tag = tag' := by
  refine ⟨fun h => ?_, fun ⟨h, h'⟩ => h ▸ h' ▸ rfl⟩
  have hchars := congrArg String.toList h
  rw [toList_seriesKey_single, toList_seriesKey_single] at hchars
  obtain ⟨hname, hrest⟩ := (append_cons_inj_of_notMem hn hn').1 hchars
  obtain ⟨hkey, hvalue⟩ := (append_cons_inj_of_notMem ht ht').1 hrest
  exact ⟨String.toList_inj.1 hname, Prod.ext (String.toList_inj.1 hkey)
    (String.toList_inj.1 (List.append_cancel_right hvalue))⟩

end

/-! ## Samples -/

namespace Sample

/-- The names and the tags of a sample leave every series a key of its own. -/
def Separable : Sample → Prop
  | counter name _ tags =>
    '\x7b' ∉ name.toList ∧ tags.length ≤ 1 ∧ ∀ t ∈ tags, '=' ∉ t.1.toList
  | gauge _ _ _ | timing _ _ _ => True

/-- What a sample records under a name, with any tag or none. -/
def worth (name : String) : Sample → Nat
  | counter n value _ => if n = name then value else 0
  | gauge _ _ _ | timing _ _ _ => 0

/-- What a sample records under a name with just the tag. -/
def worthWith (name : String) (tag : String × String) : Sample → Nat
  | counter n value tags => if n = name ∧ tags = [tag] then value else 0
  | gauge _ _ _ | timing _ _ _ => 0

variable {s : Sample} {name : String} {tag : String × String}

theorem worthWith_le_worth (s : Sample) (name : String) (tag : String × String) :
    s.worthWith name tag ≤ s.worth name := by
  cases s with
  | counter n value tags =>
    by_cases hn : n = name
    · by_cases ht : tags = [tag] <;> simp [worth, worthWith, hn, ht]
    · simp [worth, worthWith, hn]
  | gauge | timing => exact Nat.le_refl 0

theorem adds_name_of_separable (hs : s.Separable) (hname : '\x7b' ∉ name.toList) :
    s.adds name = s.worth name := by
  cases s with
  | counter n value tags => simp [adds, worth, ne_seriesKey hname, eq_comm]
  | gauge | timing => rfl

theorem adds_series_of_separable (hs : s.Separable) (hname : '\x7b' ∉ name.toList)
    (htag : '=' ∉ tag.1.toList) : s.adds (seriesKey name [tag]) = s.worthWith name tag := by
  cases s with
  | counter n value tags =>
    obtain ⟨hn, hone, hkeys⟩ := hs
    match tags, hone, hkeys with
    | [], _, _ => simp [adds, worthWith, (ne_seriesKey hn name [tag]).symm]
    | [t], _, hkeys =>
      have hseries : seriesKey name [tag] = seriesKey n [t] ↔ n = name ∧ [t] = [tag] := by
        rw [seriesKey_single_inj hname hn htag (hkeys t List.mem_cons_self), List.cons.injEq]
        simp [eq_comm]
      simp [adds, worthWith, (ne_seriesKey hn name [tag]).symm, hseries]
  | gauge | timing => rfl

end Sample

/-! ## Readings -/

namespace Tally

def recorded (ss : List Sample) : Tally := ss.foldl add empty

theorem total_recorded (ss : List Sample) (key : String) :
    (recorded ss).total key = (ss.map (Sample.adds key)).sum := by
  suffices hs : ∀ t : Tally,
      (ss.foldl add t).total key = t.total key + (ss.map (Sample.adds key)).sum from
    (hs empty).trans (Nat.zero_add _)
  induction ss with
  | nil => exact fun _ => rfl
  | cons s ss ih =>
    intro t
    rw [List.foldl_cons, ih, total_add, List.map_cons, List.sum_cons, Nat.add_assoc]

/-- A sum that fits is read as it is. -/
theorem counter_recorded {ss : List Sample} {key : String} {f : Sample → Nat}
    (hf : ∀ s ∈ ss, s.adds key = f s) (hfit : (ss.map f).sum < UInt64.size) :
    (recorded ss).counter key = (ss.map f).sum := by
  have hsum : (recorded ss).total key = (ss.map f).sum := by
    rw [total_recorded, List.map_congr_left hf]
  rw [counter, show ((recorded ss).counters.find? key).getD 0 = (ss.map f).sum from hsum,
    Nat.mod_eq_of_lt hfit]

theorem counter_add_of_adds_eq_zero {s : Sample} {key : String} (h : s.adds key = 0) (t : Tally) :
    (t.add s).counter key = t.counter key := by
  have htotal : (t.add s).total key = t.total key := by rw [total_add, h, Nat.add_zero]
  exact congrArg (· % UInt64.size) htotal

/-- The counter of a name reads the sum of what has been recorded under the name, and the counter of
a tag with it the sum of just what has been recorded under both, as long as the former fits into a
word.  Nothing that is recorded changes what is read of another name or another tag. -/
theorem readings_exact {ss : List Sample} {name : String} {tag : String × String}
    (hs : ∀ s ∈ ss, s.Separable) (hfit : (ss.map (Sample.worth name)).sum < UInt64.size)
    (hname : '\x7b' ∉ name.toList) (htag : '=' ∉ tag.1.toList) :
    (recorded ss).counter name = (ss.map (Sample.worth name)).sum ∧
      (recorded ss).tagged name [tag] = (ss.map (Sample.worthWith name tag)).sum ∧
      ∀ n value tags, (Sample.counter n value tags).Separable →
        (n ≠ name → ((recorded ss).add (.counter n value tags)).counter name =
          (recorded ss).counter name) ∧
        (n ≠ name ∨ tags ≠ [tag] → ((recorded ss).add (.counter n value tags)).tagged name [tag] =
          (recorded ss).tagged name [tag]) := by
  have hle : (ss.map (Sample.worthWith name tag)).sum ≤ (ss.map (Sample.worth name)).sum :=
    List.sum_le_sum fun s _ => s.worthWith_le_worth name tag
  refine ⟨?_, ?_, fun n value tags hn => ⟨fun hne => ?_, fun hne => ?_⟩⟩
  · exact counter_recorded (fun s h => Sample.adds_name_of_separable (hs s h) hname) hfit
  · exact counter_recorded (fun s h => Sample.adds_series_of_separable (hs s h) hname htag)
      (Nat.lt_of_le_of_lt hle hfit)
  · refine counter_add_of_adds_eq_zero ?_ _
    rw [Sample.adds_name_of_separable hn hname]
    exact if_neg hne
  · refine counter_add_of_adds_eq_zero ?_ _
    rw [Sample.adds_series_of_separable hn hname htag]
    exact if_neg fun h => hne.elim (absurd h.1) (absurd h.2)

/-- Samples of two topics, one of which looks like the end of a key with another tag. -/
def lookalikes : List Sample :=
  [.counter "m" 1 [("topic", "t")], .counter "m" 2 [("topic", "t\x7d,a=\x7b")],
    .counter "m" 4 [], .counter "m" 8 [("topic", "t")], .counter "n" 16 [("topic", "t")]]

theorem readings_exact_lookalikes :
    (∀ s ∈ lookalikes, s.Separable) ∧
      (lookalikes.map (Sample.worth "m")).sum < UInt64.size ∧
      (recorded lookalikes).counter "m" = 15 ∧
      (recorded lookalikes).tagged "m" [("topic", "t")] = 9 ∧
      (recorded lookalikes).tagged "m" [("topic", "t\x7d,a=\x7b")] = 2 := by
  have hs : ∀ s ∈ lookalikes, s.Separable := by
    simp [lookalikes, Sample.Separable]
  have hfit : (lookalikes.map (Sample.worth "m")).sum < UInt64.size := by decide
  have hone := @readings_exact lookalikes "m" ("topic", "t") hs hfit (by decide) (by decide)
  have htwo := @readings_exact lookalikes "m" ("topic", "t\x7d,a=\x7b") hs hfit (by decide)
    (by decide)
  exact ⟨hs, hfit, hone.1.trans (by decide), hone.2.1.trans (by decide), htwo.2.1.trans (by decide)⟩

end Tally

end DeadLetters
