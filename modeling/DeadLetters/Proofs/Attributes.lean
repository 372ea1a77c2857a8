import DeadLetters.Proofs.Contents

/-!
# Attributes under enrichments

Enrichments are merged into the attributes of content one after another.  The store reprints
attributes that it has only half understood, so that text which could be read before a merge may be
beyond reading after it; then the next enrichment fails where the first did not.  Attributes that stay
readable answer all enrichments alike, however many have been merged before.

    the text of a value stays readable, if it is not nested too deep       (staysReadable_text)
    a store that has merged enrichments answers the next as before      (Outgrown.answer_merge)
-/

namespace DeadLetters

def Json.Readable (text : String) : Prop := ∃ d, Document.ofText text = .ok d

namespace Topic

open Json

/-- Attributes after some enrichments. -/
inductive MergedFrom (attributes : String) : String → Prop
  | refl : MergedFrom attributes attributes
  | merge {u v body : String} {e : Enrichment} (h : MergedFrom attributes u)
      (he : Enrichment.schema.parse body = .ok e) (hv : patchText u e.patch = .ok v) :
      MergedFrom attributes v

/-- Attributes that can be read after any enrichments, if they can be read at all. -/
def StaysReadable (attributes : String) : Prop :=
  ∀ u, MergedFrom attributes u → Readable attributes → Readable u

variable {t u : String}

/-- Whether a patch can be applied is a matter of the two texts being documents. -/
theorem patchText_flaw (t patch : String) :
    (patchText t patch).map (fun _ => ()) =
      (Document.ofText t).bind fun _ => (Document.ofText patch).map fun _ => () := by
  unfold patchText
  cases Document.ofText t with
  | error f => rfl
  | ok d => cases Document.ofText patch <;> rfl

theorem readable_of_patchText {patch : String} (h : patchText t patch = .ok u) : Readable t := by
  have hflaw := patchText_flaw t patch
  rw [h] at hflaw
  cases hd : Document.ofText t with
  | ok d => exact ⟨d, hd⟩
  | error f =>
    rw [hd] at hflaw
    cases hflaw

/-- Nothing is merged into attributes that cannot be read. -/
theorem MergedFrom.eq_of_not_readable (h : MergedFrom t u) (ht : ¬ Readable t) : u = t := by
  induction h with
  | refl => rfl
  | merge _ _ hv ih =>
    subst ih
    exact absurd (readable_of_patchText hv) ht

/-- Enrichments do not decide whether the next patch can be applied. -/
theorem StaysReadable.patchText_flaw_eq (h : StaysReadable t) (hu : MergedFrom t u)
    (patch : String) :
    (patchText u patch).map (fun _ => ()) = (patchText t patch).map fun _ => () := by
  by_cases ht : Readable t
  · obtain ⟨d, hd⟩ := h u hu ht
    obtain ⟨d', hd'⟩ := ht
    rw [patchText_flaw, patchText_flaw, hd, hd']
    rfl
  · rw [hu.eq_of_not_readable ht]

/-- After enrichments, the text of a value is the text of a value. -/
theorem MergedFrom.exists_value {v : Value} (h : MergedFrom v.text u) (hv : v.Distinct)
    (hd : v.depth ≤ Document.depthLimit) :
    ∃ w : Value, u = w.text ∧ w.Distinct ∧ w.depth ≤ Document.depthLimit := by
  induction h with
  | refl => exact ⟨v, rfl, hv, hd⟩
  | merge _ he hp ih =>
    obtain ⟨w, rfl, hw, hwd⟩ := ih
    have hsound := Enrichment.sound_of_parse he
    have hdistinct := distinct_of_wellFormed hsound.wellFormed
    have hdepth : _ ≤ Document.depthLimit := Nat.le_trans hsound.depth_le (by decide)
    rw [Enrichment.patch_eq, patchText_text hw hdistinct hwd hdepth, Except.ok.injEq] at hp
    exact ⟨_, hp.symm, distinct_merged hw hdistinct, depth_merged hwd hdepth⟩

/-- What the handlers write stays readable, and so does any text of a value. -/
theorem staysReadable_text {v : Value} (hv : v.Distinct) (hd : v.depth ≤ Document.depthLimit) :
    StaysReadable v.text := by
  intro u hu _
  obtain ⟨w, rfl, -, hw⟩ := hu.exists_value hv hd
  exact ⟨w.document, ofText_text hw⟩

end Topic

namespace Store

open Topic

variable {s x : Store} {cs ds : List Content} {id patch : String} {time : Int64}

/-- What the store answers to a merge, by what comes of the text. -/
def mergeAnswer : Option (Except Json.Document.Flaw Unit) → Except Error Bool
  | none => .ok false
  | some (.ok ()) => .ok true
  | some (.error .malformed) => .error .malformedJson
  | some (.error .overrun) => .error .missingAttributes

theorem answer_mergeContent (hopen : s.closed = false) (hcs : s.contents = some cs) :
    (s.answer (.mergeContent id patch time)).1 = mergeAnswer ((findContent id cs).map fun c =>
      (Json.patchText c.attributes patch).map fun _ => ()) := by
  unfold answer perform mergeContent withContents findContent
  rw [hopen, hcs]
  dsimp only
  cases cs.find? fun c => c.id == id with
  | none => rfl
  | some c =>
    dsimp only [Option.map_some]
    cases Json.patchText c.attributes patch with
    | error f => cases f <;> rfl
    | ok attributes => rfl

/-- The second rows are the first after some enrichments. -/
def Outgrown (cs ds : List Content) : Prop :=
  ∀ id, Option.Rel (fun c d : Content => MergedFrom c.attributes d.attributes)
    (findContent id cs) (findContent id ds)

theorem Outgrown.refl (cs : List Content) : Outgrown cs cs := by
  intro id
  cases findContent id cs with
  | none => exact .none
  | some c => exact .some .refl

/-- One more enrichment. -/
theorem Outgrown.patched (h : Outgrown cs ds) {e : Enrichment} {body attributes : String}
    {d : Content} (he : Enrichment.schema.parse body = .ok e)
    (hd : findContent e.contentId ds = some d)
    (hp : Json.patchText d.attributes e.patch = .ok attributes) (time : Int64) :
    Outgrown cs (patched e.contentId attributes time ds) := by
  intro id
  have hid := h id
  rw [findContent_patched]
  by_cases hsame : id = e.contentId
  · subst hsame
    rw [hd] at hid ⊢
    cases hc : findContent e.contentId cs with
    | none =>
      rw [hc] at hid
      cases hid
    | some c =>
      rw [hc] at hid
      rw [Option.map_some, if_pos rfl]
      cases hid with
      | some hmerged => exact .some (hmerged.merge he hp)
  · simpa [hsame] using hid

/-- Where attributes stay readable, a merge is answered as before the enrichments. -/
theorem Outgrown.answer_merge (h : Outgrown cs ds) (hs : s.closed = false) (hx : x.closed = false)
    (hcs : s.contents = some cs) (hds : x.contents = some ds)
    (hstays : ∀ id c, findContent id cs = some c → StaysReadable c.attributes) :
    (x.answer (.mergeContent id patch time)).1 = (s.answer (.mergeContent id patch time)).1 := by
  rw [answer_mergeContent hs hcs, answer_mergeContent hx hds]
  have hid := h id
  generalize findContent id ds = o at hid
  cases hc : findContent id cs with
  | none =>
    rw [hc] at hid
    cases hid
    rfl
  | some c =>
    rw [hc] at hid
    cases hid with
    | some hmerged =>
      rw [Option.map_some, Option.map_some, (hstays id c hc).patchText_flaw_eq hmerged]

end Store

end DeadLetters
