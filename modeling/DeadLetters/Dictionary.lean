/-!
# Dictionaries

A dictionary maps texts to values.  Its entries are kept in increasing order of their keys, one
entry a key, so that two dictionaries with the same look-ups are written the same way.

    (d.insert k v).find? j = if j = k then some v else d.find? j          (find?_insert)
-/

namespace DeadLetters

namespace Entries

variable {α : Type}

/-- The keys increase strictly. -/
def Sorted (es : List (String × α)) : Prop := es.Pairwise fun a b => a.1 < b.1

/-- Puts `v` at `k`, in place of a value that is already there. -/
def insert (k : String) (v : α) : List (String × α) → List (String × α)
  | [] => [(k, v)]
  | (j, w) :: es =>
    if k = j then (k, v) :: es
    else if k < j then (k, v) :: (j, w) :: es
    else (j, w) :: insert k v es

/-- The value at `k`. -/
def find? (k : String) : List (String × α) → Option α
  | [] => none
  | (j, w) :: es => if k = j then some w else find? k es

/-- The entries that remain when each pair is inserted in turn, so that the last of a key wins. -/
def ofList (es : List (String × α)) : List (String × α) :=
  es.foldl (fun acc e => insert e.1 e.2 acc) []

/-! ## Lemmas -/

theorem mem_insert {e : String × α} {k : String} {v : α} :
    ∀ {es : List (String × α)}, e ∈ insert k v es → e = (k, v) ∨ e ∈ es
  | [], h => by simpa [insert] using h
  | (j, w) :: es, h => by
    simp only [insert] at h
    split at h
    · rcases List.mem_cons.1 h with h | h
      · exact .inl h
      · exact .inr (List.mem_cons_of_mem _ h)
    · split at h
      · exact List.mem_cons.1 h
      · rcases List.mem_cons.1 h with h | h
        · exact .inr (h ▸ List.mem_cons_self)
        · exact (mem_insert h).imp_right (List.mem_cons_of_mem _)

/-- Insertion keeps the order of the keys, and no key is there twice. -/
theorem sorted_insert (k : String) (v : α) :
    ∀ {es : List (String × α)}, Sorted es → Sorted (insert k v es)
  | [], _ => List.pairwise_singleton _ _
  | (j, w) :: es, h => by
    obtain ⟨hj, hes⟩ := List.pairwise_cons.1 h
    simp only [insert]
    split
    · next hk => exact List.pairwise_cons.2 ⟨fun b hb => hk ▸ hj b hb, hes⟩
    · next hk =>
      split
      · next hlt =>
        refine List.pairwise_cons.2 ⟨fun b hb => ?_, h⟩
        rcases List.mem_cons.1 hb with rfl | hb
        · exact hlt
        · exact String.lt_trans hlt (hj b hb)
      · next hlt =>
        have hjk : j < k := Std.lt_of_le_of_ne (String.not_lt.1 hlt) (Ne.symm hk)
        refine List.pairwise_cons.2 ⟨fun b hb => ?_, sorted_insert k v hes⟩
        rcases mem_insert hb with rfl | hb
        · exact hjk
        · exact hj b hb

theorem find?_insert (j k : String) (v : α) (es : List (String × α)) :
    find? j (insert k v es) = if j = k then some v else find? j es := by
  induction es with
  | nil => simp [insert, find?]
  | cons e es ih => grind [insert, find?]

end Entries

/-- A finite map from texts, in the order of its keys. -/
structure Dictionary (α : Type) where
  entries : List (String × α)
  sorted : Entries.Sorted entries

namespace Dictionary

variable {α : Type}

def empty : Dictionary α := ⟨[], .nil⟩

instance : Inhabited (Dictionary α) := ⟨empty⟩

def insert (d : Dictionary α) (k : String) (v : α) : Dictionary α :=
  ⟨Entries.insert k v d.entries, Entries.sorted_insert k v d.sorted⟩

def find? (d : Dictionary α) (k : String) : Option α := Entries.find? k d.entries

/-- Inserts the pairs in turn, so that the last of a key wins. -/
def ofList (es : List (String × α)) : Dictionary α :=
  es.foldl (fun d e => d.insert e.1 e.2) empty

def keys (d : Dictionary α) : List String := d.entries.map (·.1)

/-- What is looked up behind an insertion is what was inserted, or what was there. -/
theorem find?_insert (d : Dictionary α) (j k : String) (v : α) :
    (d.insert k v).find? j = if j = k then some v else d.find? j :=
  Entries.find?_insert j k v d.entries

end Dictionary

end DeadLetters
