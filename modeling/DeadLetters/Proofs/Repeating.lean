import DeadLetters.Proofs.Isolation

/-!
# Handling a message again

A queue delivers a message again if its acknowledgement is lost.  A message of the content topics
that has been processed is then processed again, and again it writes what it has written before: the
content metadata and the dead letters stay as they are, but for the times of update.

What makes it so is that attributes are always merged into a text that merging has written, and that
merging the same patch again changes nothing.

    attributes that handlers have written are the text of a value            (composed_of_empty)
    a processed message leaves rows that have absorbed it                 (ForContents.absorbed)
    it is processed again in such rows, and they stay as they are            (ForContents.again)
-/

namespace DeadLetters

open Program Store Topic

/-! ## Rows after a write -/

/-- Content metadata without the time of its update. -/
def Content.undated (c : Content) : Content := { c with updatedAt := 0 }

section Rows

variable {c d : Content} {cs : List Content} {id attributes : String} {now : Int64}

theorem mem_recorded (h : d ∈ recorded c cs) :
    d ∈ cs ∧ d.id ≠ c.id ∨ d = c ∨ ∃ b ∈ cs, d = b.refresh c := by
  unfold recorded at h
  split at h
  · obtain ⟨b, hb, rfl⟩ := List.mem_map.1 h
    by_cases hid : b.id = c.id
    · rw [if_pos (beq_iff_eq.2 hid)]
      exact .inr (.inr ⟨b, hb, rfl⟩)
    · rw [if_neg (by simpa using hid)]
      exact .inl ⟨hb, hid⟩
  · next hany =>
    rcases List.mem_append.1 h with hd | hd
    · refine .inl ⟨hd, fun hid => hany ?_⟩
      exact List.any_eq_true.2 ⟨d, hd, beq_iff_eq.2 hid⟩
    · exact .inr (.inl (List.mem_singleton.1 hd))

theorem exists_mem_recorded (c : Content) (cs : List Content) :
    ∃ d ∈ recorded c cs, d.id = c.id := by
  have hfound : findContent c.id (recorded c cs) = _ := findContent_recorded
  rw [if_pos rfl] at hfound
  exact ⟨_, List.mem_of_find?_eq_some hfound, id_of_findContent hfound⟩

theorem mem_patched (h : d ∈ patched id attributes now cs) :
    d ∈ cs ∧ d.id ≠ id ∨
      ∃ b ∈ cs, b.id = id ∧ d = { b with attributes := attributes, updatedAt := now } := by
  obtain ⟨b, hb, rfl⟩ := List.mem_map.1 h
  by_cases hid : b.id = id
  · rw [if_pos (beq_iff_eq.2 hid)]
    exact .inr ⟨b, hb, hid, rfl⟩
  · rw [if_neg (by simpa using hid)]
    exact .inl ⟨hb, hid⟩

end Rows

/-! ## Attributes that handlers have written -/

/-- The attributes are the text of a value, as the handlers write it. -/
def Content.Composed (c : Content) : Prop :=
  ∃ v : Json.Value, c.attributes = v.text ∧ v.Distinct ∧ v.depth ≤ Enrichment.attributeDepth

/-- If the request is a change of content metadata, it comes from a message that has been read. -/
structure FromMessage (y : Request) : Prop where
  upload : ∀ c, y = .store (.putContent c) → ∃ u now, Writer.contentOf u now = .ok c
  patch : ∀ id p now, y = .store (.mergeContent id p now) →
    ∃ body e, Enrichment.schema.parse body = .ok e ∧ p = e.patch

theorem fromMessage_of_not_changes {y : Request} (h : y.changesContents = false) :
    FromMessage y := by
  constructor
  · rintro c rfl
    cases h
  · rintro id p now rfl
    cases h

theorem lenient_fromMessage : Lenient FromMessage :=
  .of_aside fun _ hy => fromMessage_of_not_changes (lenient_aloof.aside hy)

theorem composed_contentOf {u : Upload} {now : Int64} {c : Content}
    (h : Writer.contentOf u now = .ok c) : c.Composed := by
  obtain ⟨v, hv, -, hdistinct, hwithin⟩ := holds_contentOf h
  exact ⟨v, hv, hdistinct, hwithin.depth_le⟩

/-- A patch that has been read, and the value that it is the text of. -/
theorem patch_of_parse {body : String} {e : Enrichment} (h : Enrichment.schema.parse body = .ok e) :
    e.patch = e.value.text ∧ e.value.Distinct ∧ e.value.depth ≤ Enrichment.attributeDepth := by
  have hs := Enrichment.sound_of_parse h
  exact ⟨e.patch_eq, Json.distinct_of_wellFormed hs.wellFormed, hs.depth_le⟩

/-- Merging into the text of a value gives the text of the merged value. -/
theorem patchText_composed {v : Json.Value} {body : String} {e : Enrichment} (hv : v.Distinct)
    (hd : v.depth ≤ Enrichment.attributeDepth) (h : Enrichment.schema.parse body = .ok e) :
    Json.patchText v.text e.patch = .ok (v.merged e.value).text ∧ (v.merged e.value).Distinct ∧
      (v.merged e.value).depth ≤ Enrichment.attributeDepth := by
  obtain ⟨hpatch, hp, hpd⟩ := patch_of_parse h
  have hlimit : Enrichment.attributeDepth ≤ Json.Document.depthLimit := by decide
  refine ⟨?_, Json.distinct_merged hv hp, Json.depth_merged hd hpd⟩
  rw [hpatch]
  exact Json.patchText_text hv hp (Nat.le_trans hd hlimit) (Nat.le_trans hpd hlimit)

theorem composed_recorded {c : Content} {cs : List Content} (h : ∀ d ∈ cs, d.Composed)
    (hc : c.Composed) : ∀ d ∈ recorded c cs, d.Composed := by
  intro d hd
  rcases mem_recorded hd with ⟨hd, -⟩ | rfl | ⟨b, hb, rfl⟩
  · exact h d hd
  · exact hc
  · exact h b hb

theorem composed_patched {c : Content} {cs : List Content} {id attributes body : String}
    {now : Int64} {e : Enrichment} (h : ∀ d ∈ cs, d.Composed) (hc : c ∈ cs)
    (he : Enrichment.schema.parse body = .ok e)
    (hp : Json.patchText c.attributes e.patch = .ok attributes) :
    ∀ d ∈ patched id attributes now cs, d.Composed := by
  obtain ⟨v, hv, hdistinct, hdepth⟩ := h c hc
  obtain ⟨htext, hmerged⟩ := patchText_composed hdistinct hdepth he
  rw [hv, htext] at hp
  intro d hd
  rcases mem_patched hd with ⟨hd, -⟩ | ⟨b, -, -, rfl⟩
  · exact h d hd
  · exact ⟨_, (Except.ok.inj hp).symm, hmerged⟩

def Store.Composed (s : Store) : Prop := ∀ cs, s.contents = some cs → ∀ c ∈ cs, c.Composed

theorem composed_answer {s : Store} {q : Query} (hq : FromMessage (.store q)) (h : s.Composed) :
    (s.answer q).2.Composed := by
  cases hc : q.changesContents with
  | false =>
    intro cs hcs
    exact h cs (((s.answer_unchanged q).2 hc).symm.trans hcs)
  | true =>
    cases ha : (s.answer q).1 with
    | error e =>
      rw [answer_of_error ha]
      exact h
    | ok a =>
      have hp := (answer_eq_ok_iff.1 (Prod.ext ha rfl : s.answer q = (.ok a, (s.answer q).2))).2
      generalize (s.answer q).2 = s' at hp
      cases q with
      | putContent c =>
        obtain ⟨cs, hcs, rfl⟩ := putContent_eq_ok_iff.1 hp
        obtain ⟨u, now, hu⟩ := hq.upload c rfl
        rintro _ ⟨⟩
        exact composed_recorded (h cs hcs) (composed_contentOf hu)
      | mergeContent id p now =>
        obtain ⟨cs, hcs, ⟨-, -, rfl⟩ | ⟨c, attributes, hfound, hpatched, -, rfl⟩⟩ :=
          mergeContent_eq_ok_iff.1 hp
        · exact h
        · obtain ⟨body, e, he, rfl⟩ := hq.patch id p now rfl
          rintro _ ⟨⟩
          exact composed_patched (h cs hcs) (List.mem_of_find?_eq_some hfound) he hpatched
      | _ => cases hc

theorem Reacts.composed {s s' : Store} {x : Exchange} (h : Reacts s x s')
    (hx : FromMessage x.request) (hs : s.Composed) : s'.Composed := by
  cases h with
  | answered q => exact composed_answer hx hs
  | lost q => exact composed_answer hx hs
  | refused | elsewhere => exact hs

namespace Operation

/-- An operation that handles messages has the handlers of the content topics do it. -/
def HandlesContents : Operation → Prop
  | deliver r _ _ _ | batch r _ _ _ =>
    ∃ service limits, r.ForContents .store service limits
  | _ => True

end Operation

/-! What the handlers ask for. -/

theorem Topic.Upload.asks_fromMessage (m : Message Upload) :
    ((Upload.processor .store).process m).Asks FromMessage := by
  refine Asks.bind (lenient_fromMessage.clock.bind fun now => ?_) fun recorded => ?_
  · split
    · exact asks_done _
    · next c hc =>
      refine (asks_query_iff.2 ⟨?_, nofun⟩).bind fun answer => ?_
      · split <;> exact asks_done _
      · rintro c' ⟨⟩
        exact ⟨_, now, hc⟩
  · split
    · exact asks_done _
    · exact (lenient_fromMessage.log _).bind fun _ => asks_done _

theorem Topic.Enrichment.asks_fromMessage {m : Message Enrichment} {body : String}
    (h : schema.parse body = .ok m.body) :
    ((Enrichment.processor .store).process m).Asks FromMessage := by
  refine Asks.bind (lenient_fromMessage.clock.bind fun now => ?_) fun merged => ?_
  · refine (asks_query_iff.2 ⟨nofun, ?_⟩).bind fun answer => ?_
    · split <;> exact asks_done _
    · rintro id p now' ⟨⟩
      exact ⟨body, m.body, h, rfl⟩
  · split <;> exact asks_done _

section Asks

variable {r : Router} {service : Service} {limits : Limits}

theorem Router.ForContents.asks_fromMessage (hr : r.ForContents .store service limits)
    (topic : String) (m : Message String) : (r.deliver topic m).Asks FromMessage := by
  refine Router.asks_deliver lenient_fromMessage r (fun handle hh => ?_)
    (fromMessage_of_not_changes rfl)
  by_cases hu : topic = Upload.topic
  · rw [hu, hr.upload, Option.some.injEq] at hh
    rw [← hh]
    exact Handler.asks_handleWith lenient_fromMessage (fun _ _ => Upload.asks_fromMessage _)
      (fun _ => fromMessage_of_not_changes rfl) fun _ _ _ => fromMessage_of_not_changes rfl
  by_cases he : topic = Enrichment.topic
  · rw [he, hr.enrichment, Option.some.injEq] at hh
    rw [← hh]
    exact Handler.asks_handleWith lenient_fromMessage
      (fun _ hb => Enrichment.asks_fromMessage hb)
      (fun _ => fromMessage_of_not_changes rfl) fun _ _ _ => fromMessage_of_not_changes rfl
  · rw [hr.other topic hu he] at hh
    cases hh

theorem Operation.asks_fromMessage {o : Operation} (h : o.HandlesContents) :
    o.thread.program.Asks FromMessage := by
  have aloof : o.Aloof → o.thread.program.Asks FromMessage := fun ha =>
    (Operation.asks_aloof ha).mono fun _ => fromMessage_of_not_changes
  cases o with
  | deliver r _ topic m =>
    obtain ⟨service, limits, hr⟩ := h
    exact hr.asks_fromMessage topic m
  | batch r _ topic ms =>
    obtain ⟨service, limits, hr⟩ := h
    exact Router.asks_processBatch lenient_fromMessage r fun m _ => hr.asks_fromMessage topic m
  | _ => exact aloof trivial

end Asks

/-- In every state that such operations reach from a store without content metadata, attributes are
composed. -/
theorem composed_of_empty {ops : List Operation} {s s' : Store} {t : List Event}
    (h : SideBySide (ops.map Operation.thread) s t s') (hops : ∀ o ∈ ops, o.HandlesContents)
    (h0 : s.contents = some []) : s'.Composed := by
  refine h.history.along (P := fun _ m => m.Composed) ?_ ?_
  · intro cs hcs c hc
    rw [h0, Option.some.injEq] at hcs
    rw [← hcs] at hc
    cases hc
  · intro past e rest ht hpast hreacts
    obtain ⟨th, hth, hasks⟩ := h.exists_thread (e := e) (by simp [ht])
    obtain ⟨o, ho, rfl⟩ : ∃ o, ops[e.thread]? = some o ∧ o.thread = th := by simpa using hth
    exact hreacts.composed
      (hasks _ (Operation.asks_fromMessage (hops o (List.mem_of_getElem? ho)))) hpast

/-! ## Rows that have absorbed a message -/

section Absorbing

variable {c d b : Content} {cs ds : List Content} {u : Upload} {e : Enrichment} {now : Int64}

theorem Content.Records.refresh (h : c.Records u) : (b.refresh c).Records u :=
  ⟨h.id, h.bucket, h.objectKey, h.sizeBytes, h.contentType, h.uploadedAt⟩

/-- Content takes nothing new from the upload that it records. -/
theorem Content.Records.undated_refresh (hd : d.Records u) (hc : c.Records u) :
    (d.refresh c).undated = d.undated := by
  have hsize : d.sizeBytes = c.sizeBytes :=
    Int64.toInt_inj.1 (hd.sizeBytes.trans hc.sizeBytes.symm)
  rw [Content.undated, Content.undated, Content.refresh, hd.id.trans hc.id.symm,
    hd.bucket.trans hc.bucket.symm, hd.objectKey.trans hc.objectKey.symm, hsize,
    hd.contentType.trans hc.contentType.symm, hd.uploadedAt.trans hc.uploadedAt.symm]

namespace Topic

/-- The rows have the facts of an upload. -/
structure Upload.Absorbed (u : Upload) (cs : List Content) : Prop where
  known : ∃ d ∈ cs, d.id = u.contentId
  facts : ∀ d ∈ cs, d.id = u.contentId → d.Records u

/-- The rows have attributes into which those of an enrichment have been merged. -/
structure Enrichment.Absorbed (e : Enrichment) (cs : List Content) : Prop where
  known : ∃ d ∈ cs, d.id = e.contentId
  merged : ∃ v : Json.Value, v.Distinct ∧ v.depth ≤ attributeDepth ∧ v.merged e.value = v ∧
    ∀ d ∈ cs, d.id = e.contentId → d.attributes = v.text

theorem Upload.absorbed_recorded (cs : List Content) (hc : Writer.contentOf u now = .ok c) :
    u.Absorbed (recorded c cs) := by
  have hrecords := records_contentOf hc
  refine ⟨hrecords.id ▸ exists_mem_recorded c cs, fun d hd hid => ?_⟩
  rcases mem_recorded hd with ⟨-, hne⟩ | rfl | ⟨b, -, rfl⟩
  · exact absurd (hid.trans hrecords.id.symm) hne
  · exact hrecords
  · exact hrecords.refresh

/-- Writing an upload down again changes nothing but times. -/
theorem Upload.Absorbed.undated_recorded (h : u.Absorbed cs)
    (hc : Writer.contentOf u now = .ok c) :
    (recorded c cs).map Content.undated = cs.map Content.undated := by
  have hrecords := records_contentOf hc
  obtain ⟨d, hd, hid⟩ := h.known
  have hany : (cs.any fun d => d.id == c.id) = true :=
    List.any_eq_true.2 ⟨d, hd, beq_iff_eq.2 (hid.trans hrecords.id.symm)⟩
  rw [recorded, if_pos hany, List.map_map]
  refine List.map_congr_left fun d hd => ?_
  by_cases hid : d.id = c.id
  · rw [Function.comp_apply, if_pos (beq_iff_eq.2 hid)]
    exact (h.facts d hd (hid.trans hrecords.id)).undated_refresh hrecords
  · rw [Function.comp_apply, if_neg (by simpa using hid)]

theorem Enrichment.absorbed_patched {v : Json.Value} (hknown : ∃ d ∈ cs, d.id = e.contentId)
    (hv : v.Distinct) (hd : v.depth ≤ attributeDepth) (hm : v.merged e.value = v) :
    e.Absorbed (patched e.contentId v.text now cs) := by
  obtain ⟨d, hmem, hid⟩ := hknown
  refine ⟨⟨_, List.mem_map_of_mem hmem, ?_⟩, v, hv, hd, hm, fun d hd hid => ?_⟩
  · rw [if_pos (beq_iff_eq.2 hid)]
    exact hid
  · rcases mem_patched hd with ⟨-, hne⟩ | ⟨b, -, -, rfl⟩
    · exact absurd hid hne
    · rfl

/-- Attributes that are there already change nothing but times. -/
theorem undated_patched {id attributes : String}
    (h : ∀ d ∈ cs, d.id = id → d.attributes = attributes) :
    (patched id attributes now cs).map Content.undated = cs.map Content.undated := by
  rw [patched, List.map_map]
  refine List.map_congr_left fun d hd => ?_
  by_cases hid : d.id = id
  · rw [Function.comp_apply, if_pos (beq_iff_eq.2 hid), ← h d hd hid]
    rfl
  · rw [Function.comp_apply, if_neg (by simpa using hid)]

/-- The rows have absorbed the body of a message. -/
inductive Absorbed (cs : List Content) : String → String → Prop
  | upload {u : Upload} {body : String} (hu : Upload.schema.parse body = .ok u)
      (hfits : ∀ now, ∃ c, Writer.contentOf u now = .ok c) (h : u.Absorbed cs) :
      Absorbed cs Upload.topic body
  | enrichment {e : Enrichment} {body : String} (he : Enrichment.schema.parse body = .ok e)
      (h : e.Absorbed cs) : Absorbed cs Enrichment.topic body

/-- Whether the size of an upload fits is not a matter of time. -/
theorem exists_contentOf (hc : Writer.contentOf u now = .ok c) (now' : Int64) :
    ∃ c', Writer.contentOf u now' = .ok c' := by
  have hverdict := (Upload.verdict_eq u now).symm.trans (Upload.verdict_eq u now')
  rw [hc] at hverdict
  cases hc' : Writer.contentOf u now' with
  | ok c' => exact ⟨c', rfl⟩
  | error f =>
    rw [hc'] at hverdict
    cases hverdict

end Topic

end Absorbing

/-! ## Deliveries -/

section Deliveries

variable {β : Type} {p : Processor β} {b : β} {r : Router} {service : Service} {limits : Limits}
  {topic : String} {m : Message String} {d : Disposition} {o : Outcome} {s s' : Store}
  {cs : List Content} {t : List Event}

/-- A message that fits is processed if its processor succeeds, and all changes of content metadata
that are asked for are its processor's. -/
theorem Handler.handleWith_asked {t : List Exchange} (hb : p.schema.parse m.body = .ok b)
    (h : (Handler.handleWith p service limits m).Goes t (done d)) :
    ∃ call o, (p.process (m.withBody b)).Goes call (await o) ∧ asked t = asked call ∧
      (o = some (.ok ()) ↔ d = .processed) := by
  obtain ⟨call, rest, o, rfl, hcalls, hrest, hend⟩ := handleWith_calls h
  cases hcalls with
  | rejected he => cases hb.symm.trans he
  | @ended b' _ _ hb' hgoes =>
    obtain rfl : b' = b := Except.ok.inj (hb'.symm.trans hb)
    refine ⟨call, o, hgoes, by rw [asked_append, hrest, List.append_nil], ?_⟩
    rcases hend with ⟨rfl, rfl, -⟩ | ⟨f, hf, hafter⟩
    · exact iff_of_true rfl rfl
    · refine iff_of_false ?_ hafter.ne_processed
      rintro rfl
      cases hf

/-- The acknowledgement adds nothing to that. -/
theorem Router.deliver_asked {t : List Exchange}
    (hr : r.handlers.find? topic = some (Handler.handleWith p service limits))
    (hb : p.schema.parse m.body = .ok b) (h : (r.deliver topic m).Goes t (done o)) :
    ∃ call o', (p.process (m.withBody b)).Goes call (await o') ∧ asked t = asked call ∧
      (o' = some (.ok ()) ↔ o.disposition = .processed) := by
  obtain ⟨t₁, t₂, d, acked, rfl, h₁, h₂, rfl⟩ := deliver_ends hr h
  have hquiet : asked t₂ = [] := h₂.asked_eq_nil (asks_settle lenient_aloof r fun _ => rfl)
  rw [asked_append, hquiet, List.append_nil]
  exact Handler.handleWith_asked hb h₁

theorem Router.ForContents.asked_upload {t : List Exchange} {u : Upload}
    (hr : r.ForContents .store service limits) (hu : Upload.schema.parse m.body = .ok u)
    (h : (r.deliver Upload.topic m).Goes t (done o)) :
    ∃ o', u.Asked (asked t) o' ∧ (o' = some (.ok ()) ↔ o.disposition = .processed) := by
  obtain ⟨call, o', hcall, hasked, ho'⟩ := Router.deliver_asked hr.upload hu h
  exact ⟨o', hasked ▸ Upload.process_asks hcall, ho'⟩

theorem Router.ForContents.asked_enrichment {t : List Exchange} {e : Enrichment}
    (hr : r.ForContents .store service limits) (he : Enrichment.schema.parse m.body = .ok e)
    (h : (r.deliver Enrichment.topic m).Goes t (done o)) :
    ∃ o', e.Asked (asked t) o' ∧ (o' = some (.ok ()) ↔ o.disposition = .processed) := by
  obtain ⟨call, o', hcall, hasked, ho'⟩ := Router.deliver_asked hr.enrichment he h
  exact ⟨o', hasked ▸ Enrichment.process_asks hcall, ho'⟩

/-- A message that is processed leaves the dead letters alone. -/
theorem Router.KeepsOut.alike (hr : r.KeepsOut) (h : History s t s')
    (ho : (r.deliver topic m).Goes (t.map Event.exchange) (done o))
    (hp : o.disposition = .processed) : s.Alike s' := by
  refine h.alike ?_
  generalize t.map Event.exchange = t at ho
  cases hh : r.handlers.find? topic with
  | none =>
    rw [deliver_of_none hh] at ho
    obtain ⟨t₁, t₂, acked, -, -, h₂⟩ := goes_bind_done_iff.1 ho
    rw [done.inj (goes_done_iff.1 h₂).2] at hp
    cases hp
  | some handle =>
    obtain ⟨β, p, service, limits, hkeeps, rfl⟩ := hr topic handle hh
    obtain ⟨t₁, t₂, d, acked, rfl, h₁, h₂, rfl⟩ := deliver_ends hh ho
    have hquiet : only Request.touchesLetters t₂ = [] :=
      h₂.only_eq_nil (asks_settle lenient_not_touches r fun _ => rfl)
    rw [only_append, hquiet, List.append_nil]
    rcases Handler.handleWith_touches hkeeps h₁ with ⟨-, htouches⟩ | ⟨f, hafter⟩
    · exact htouches
    · exact absurd hp hafter.ne_processed

/-- Where no change of content metadata is asked for, the rows stay. -/
theorem History.contents_of_not_asked (h : History s t s')
    (ht : asked (t.map Event.exchange) = []) : s'.contents = s.contents := by
  induction h with
  | nil => rfl
  | @cons e t s he _ ih =>
    rw [List.map_cons, asked, only_cons] at ht
    split at ht
    · cases ht
    · next hc => rw [ih ht, he.contents (by simpa using hc)]

/-- The only change that is asked for takes place while the rows are as at first, and leaves them as
in the end. -/
theorem History.exists_asked {x : Exchange} (h : History s t s')
    (hx : asked (t.map Event.exchange) = [x]) :
    ∃ e ∈ t, e.exchange = x ∧ e.before.contents = s.contents ∧ e.before.closed = s.closed ∧
      s'.contents = e.after.contents := by
  obtain ⟨u, e, v, rfl, rfl, hu, hv⟩ := exists_of_only_eq hx
  obtain ⟨hbefore, -, hafter⟩ := h.at
  exact ⟨e, by simp, rfl, hbefore.contents_of_not_asked hu, hbefore.closed,
    hafter.contents_of_not_asked hv⟩

/-- It is heard as on the store at first. -/
theorem History.heard {q : Query} {a : Option (Except Error q.Answer)} (h : History s t s')
    (hheard : ContentsHeard t) (hx : asked (t.map Event.exchange) = [⟨.store q, a⟩]) :
    ∃ x : Store, x.contents = s.contents ∧ x.closed = s.closed ∧ a = some (x.answer q).1 := by
  obtain ⟨e, he, heq, hfirst, hsame, -⟩ := h.exists_asked hx
  have hchanges : (Request.store q).changesContents = true := by
    have hmem : (⟨.store q, a⟩ : Exchange) ∈ asked (t.map Event.exchange) := by simp [hx]
    exact (mem_only.1 hmem).2
  have hexchange := heq.symm.trans (hheard e he q (congrArg Exchange.request heq) hchanges)
  exact ⟨e.before, hfirst, hsame, eq_of_heq (Sigma.mk.inj hexchange).2⟩

theorem History.exists_recorded {c : Content} (h : History s t s')
    (hx : asked (t.map Event.exchange) = [⟨.store (.putContent c), some (.ok ())⟩]) :
    s.closed = false ∧ ∃ cs, s.contents = some cs ∧ s'.contents = some (recorded c cs) := by
  obtain ⟨e, he, heq, hfirst, hsame, hlast⟩ := h.exists_asked hx
  have hreacts := h.reacts e he
  rw [heq] at hreacts
  obtain ⟨hopen, hput⟩ := answer_eq_ok_iff.1 hreacts.answer_eq
  obtain ⟨cs, hcs, hafter⟩ := putContent_eq_ok_iff.1 hput
  rw [hafter] at hlast
  exact ⟨hsame.symm.trans hopen, cs, hfirst.symm.trans hcs, hlast⟩

theorem History.exists_patched {id patch : String} {now : Int64} (h : History s t s')
    (hx : asked (t.map Event.exchange) =
      [⟨.store (.mergeContent id patch now), some (.ok true)⟩]) :
    s.closed = false ∧ ∃ cs c attributes, s.contents = some cs ∧ findContent id cs = some c ∧
      Json.patchText c.attributes patch = .ok attributes ∧
      s'.contents = some (patched id attributes now cs) := by
  obtain ⟨e, he, heq, hfirst, hsame, hlast⟩ := h.exists_asked hx
  have hreacts := h.reacts e he
  rw [heq] at hreacts
  obtain ⟨hopen, hmerge⟩ := answer_eq_ok_iff.1 hreacts.answer_eq
  obtain ⟨cs, hcs, ⟨-, hfalse, -⟩ | ⟨c, attributes, hfound, hpatched, -, hafter⟩⟩ :=
    mergeContent_eq_ok_iff.1 hmerge
  · cases hfalse
  rw [hafter] at hlast
  exact ⟨hsame.symm.trans hopen, cs, c, attributes, hfirst.symm.trans hcs, hfound, hpatched, hlast⟩

/-- A message that is processed leaves rows that have absorbed it. -/
theorem Router.ForContents.absorbed (hr : r.ForContents .store service limits)
    (h : History s t s') (hs : s.Composed)
    (ho : (r.deliver topic m).Goes (t.map Event.exchange) (done o))
    (hp : o.disposition = .processed) :
    s.closed = false ∧ ∃ cs, s'.contents = some cs ∧ Absorbed cs topic m.body := by
  have hwrote := Router.deliver_writes hr ho
  rw [hp] at hwrote
  generalize writes (t.map Event.exchange) = w at hwrote
  cases hwrote with
  | uploaded htopic hu hw =>
    subst htopic
    obtain ⟨o', hasked, ho'⟩ := hr.asked_upload hu ho
    obtain rfl := ho'.2 hp
    rcases hasked with ⟨_, f, -, -, ha⟩ | ⟨now, c, a, hc, hone, ha⟩
    · cases ha
    obtain rfl : a = some (.ok ()) := by
      rcases a with _ | (f | ⟨⟨⟩⟩) <;> first | rfl | cases ha
    obtain ⟨hopen, cs, -, hlast⟩ := h.exists_recorded hone
    exact ⟨hopen, _, hlast, .upload hu (exists_contentOf hc) (Upload.absorbed_recorded cs hc)⟩
  | @enriched e _ htopic hparse hw =>
    subst htopic
    obtain ⟨o', ⟨now, a, hone, ha⟩, ho'⟩ := hr.asked_enrichment hparse ho
    obtain rfl := ho'.2 hp
    obtain rfl : a = some (.ok true) := by
      rcases a with _ | (f | (_ | _)) <;> first | rfl | cases ha
    obtain ⟨hopen, cs, c, attributes, hcs, hfound, hpatched, hlast⟩ :=
      h.exists_patched hone
    have hmem := List.mem_of_find?_eq_some hfound
    obtain ⟨v, hv, hdistinct, hdepth⟩ := hs cs hcs c hmem
    obtain ⟨htext, hmerged, hdeep⟩ := patchText_composed hdistinct hdepth hparse
    rw [hv, htext, Except.ok.injEq] at hpatched
    rw [← hpatched] at hlast
    refine ⟨hopen, _, hlast, .enrichment hparse ?_⟩
    exact Enrichment.absorbed_patched ⟨c, hmem, id_of_findContent hfound⟩ hmerged hdeep
      (Json.merged_merged (patch_of_parse hparse).2.1 v)
  | nothing hne => exact absurd rfl hne

/-- Rows that have absorbed a message stay as they are, but for times, when it is delivered again,
and it is processed. -/
theorem Router.ForContents.again (hr : r.ForContents .store service limits)
    (h : History s t s') (hheard : ContentsHeard t) (hopen : s.closed = false)
    (hcs : s.contents = some cs) (habsorbed : Absorbed cs topic m.body)
    (ho : (r.deliver topic m).Goes (t.map Event.exchange) (done o)) :
    o.disposition = .processed ∧ ∃ ds, s'.contents = some ds ∧
      ds.map Content.undated = cs.map Content.undated ∧ Absorbed ds topic m.body := by
  generalize hbody : m.body = body at habsorbed
  cases habsorbed with
  | upload hu hfits hknown =>
    obtain ⟨o', hasked, ho'⟩ := hr.asked_upload (hbody ▸ hu) ho
    rcases hasked with ⟨now, f, hf, -, -⟩ | ⟨now, c, a, hc, hone, rfl⟩
    · obtain ⟨c, hc⟩ := hfits now
      cases hf.symm.trans hc
    obtain ⟨x, hfirst, hsame, rfl⟩ := h.heard hheard hone
    have hanswer : x.answer (.putContent c) = (.ok (), _) :=
      answer_eq_ok_iff.2 ⟨hsame.trans hopen,
        putContent_eq_ok_iff.2 ⟨cs, hfirst.trans hcs, rfl⟩⟩
    rw [hanswer] at hone ho'
    obtain ⟨-, cs', hcs', hlast⟩ := h.exists_recorded hone
    obtain rfl : cs' = cs := Option.some.inj (hcs'.symm.trans hcs)
    exact ⟨ho'.1 rfl, _, hlast, hknown.undated_recorded hc,
      .upload hu hfits (Upload.absorbed_recorded _ hc)⟩
  | @enrichment e _ hparse hknown =>
    obtain ⟨o', ⟨now, a, hone, rfl⟩, ho'⟩ := hr.asked_enrichment (hbody ▸ hparse) ho
    obtain ⟨x, hfirst, hsame, rfl⟩ := h.heard hheard hone
    obtain ⟨v, hdistinct, hdepth, hmerged, htexts⟩ := hknown.merged
    obtain ⟨d, hmem, hid⟩ := hknown.known
    obtain ⟨c, hfound⟩ : ∃ c, findContent e.contentId cs = some c :=
      Option.isSome_iff_exists.1 (List.find?_isSome.2 ⟨d, hmem, beq_iff_eq.2 hid⟩)
    have hpatched : Json.patchText c.attributes e.patch = .ok v.text := by
      rw [htexts c (List.mem_of_find?_eq_some hfound) (id_of_findContent hfound),
        (patchText_composed hdistinct hdepth hparse).1, hmerged]
    have hanswer : x.answer (.mergeContent e.contentId e.patch now) = (.ok true, _) :=
      answer_eq_ok_iff.2 ⟨hsame.trans hopen, mergeContent_eq_ok_iff.2
        ⟨cs, hfirst.trans hcs, .inr ⟨c, v.text, hfound, hpatched, rfl, rfl⟩⟩⟩
    rw [hanswer] at hone ho'
    obtain ⟨-, cs', c', attributes, hcs', hfound', hpatched', hlast⟩ :=
      h.exists_patched hone
    obtain rfl : cs' = cs := Option.some.inj (hcs'.symm.trans hcs)
    obtain rfl : c' = c := Option.some.inj (hfound'.symm.trans hfound)
    obtain rfl : attributes = v.text := Except.ok.inj (hpatched'.symm.trans hpatched)
    exact ⟨ho'.1 rfl, _, hlast, undated_patched htexts, .enrichment hparse
      (Enrichment.absorbed_patched hknown.known hdistinct hdepth hmerged)⟩

/-- Messages with the same body are delivered one after another, each to rows that have absorbed
it. -/
theorem Router.ForContents.consume_again {env : Surroundings} {w : World} {body : String}
    {ms : List (Message String)} (hr : r.ForContents .store service limits)
    (henv : ∀ n q, q.changesContents = true → env.store n q = .accepts)
    (hopen : w.store.closed = false) (hcs : w.store.contents = some cs)
    (habsorbed : Absorbed cs topic body) (hms : ∀ m ∈ ms, m.body = body) :
    ∃ os w' ds, w.run env (r.consume (ms.map fun m => (topic, m))) = (some os, w') ∧
      os.length = ms.length ∧ (∀ o ∈ os, o.disposition = .processed) ∧
      w'.store.contents = some ds ∧ ds.map Content.undated = cs.map Content.undated ∧
      w'.store.letters = w.store.letters := by
  induction ms generalizing w cs with
  | nil => exact ⟨[], w, cs, rfl, rfl, by simp, hcs, rfl, rfl⟩
  | cons m ms ih =>
    obtain rfl := hms m List.mem_cons_self
    obtain ⟨o, hfirst⟩ := @World.exists_result _ env _ (hr.ends_deliver topic m) w
    obtain ⟨t, hg, hl⟩ := @World.run_goes _ env 0 w (r.deliver topic m)
    rw [hfirst] at hg
    obtain ⟨hp, ds, hds, hsame, habsorbed'⟩ :=
      hr.again hl.history (hl.contentsHeard henv) hopen hcs habsorbed hg
    have halike := hr.keepsOut.alike hl.history hg hp
    obtain ⟨os, w', ds', hrest, hlength, hall, hds', hsame', hletters⟩ :=
      ih (halike.closed.trans hopen) hds habsorbed' fun m' hm' =>
        hms m' (List.mem_cons_of_mem _ hm')
    refine ⟨o :: os, w', ds', ?_, congrArg Nat.succ hlength, List.forall_mem_cons.2 ⟨hp, hall⟩,
      hds', hsame'.trans hsame, hletters.trans halike.letters⟩
    rw [List.map_cons, Router.consume, World.run_bind_of (Prod.ext hfirst rfl),
      World.run_bind_of hrest]
    rfl

/-- Content metadata has been written by handlers only, and a message has been processed.  When it
is delivered any number of further times, whatever its attempts, it is processed each time, and
leaves the content metadata as it is, but for the times of update, and the dead letters. -/
theorem redelivery_harmless {ops : List Operation} {w w' : World} {env env' : Surroundings}
    (hops : ∀ o ∈ ops, o.HandlesContents) (hempty : s.contents = some [])
    (h : SideBySide (ops.map Operation.thread) s t w.store)
    (hr : r.ForContents .store service limits)
    (hrun : w.run env (r.deliver topic m) = (some o, w')) (hp : o.disposition = .processed)
    (henv : ∀ n q, q.changesContents = true → env'.store n q = .accepts)
    {ms : List (Message String)} (hms : ∀ m' ∈ ms, m'.body = m.body) :
    ∃ os w'', w'.run env' (r.consume (ms.map fun m' => (topic, m'))) = (some os, w'') ∧
      os.length = ms.length ∧ (∀ o' ∈ os, o'.disposition = .processed) ∧
      w''.store.contents.map (List.map Content.undated) =
        w'.store.contents.map (List.map Content.undated) ∧
      w''.store.letters = w'.store.letters := by
  obtain ⟨u, hg, hl⟩ := @World.run_goes _ env 0 w (r.deliver topic m)
  rw [hrun] at hg hl
  obtain ⟨hopen, cs, hcs, habsorbed⟩ :=
    hr.absorbed hl.history (composed_of_empty h hops hempty) hg hp
  obtain ⟨os, w'', ds, hrest, hlength, hall, hds, hsame, hletters⟩ :=
    hr.consume_again henv (hl.history.closed.trans hopen) hcs habsorbed hms
  refine ⟨os, w'', hrest, hlength, hall, ?_, hletters⟩
  rw [hds, hcs, Option.map_some, Option.map_some, hsame]

end Deliveries

/-! ## A redelivery -/

theorem Router.forContents_contents :
    Router.contents.ForContents .store (.ofConfig {}) (.ofConfig {}) :=
  @forContents_of_registerAll calm (.new .fresh) .logged 30 _ _ _ _ rfl

/-- An upload and attributes for it. -/
def Operation.uploading : List Operation :=
  [.batch Router.contents Router.forContents_contents.keepsOut Upload.topic
      [.new "1" 1 (Upload.sample 1).text],
    .deliver Router.contents Router.forContents_contents.keepsOut Enrichment.topic
      (.new "2" 1 (Enrichment.body
        [("a", .object [("x", .number (.int 1)), ("y", .number (.int 2))])]))]

/-- Attributes that take away a member, and one that is not there. -/
def Topic.Enrichment.nested (attempt : UInt32) : Message String :=
  .new "3" attempt (Enrichment.body
    [("a", .object [("x", .null), ("z", .null)]), ("b", .object [("c", .null)])])

/-- The world after these operations. -/
def World.uploaded : World := Operation.sequence Router.calm (.new .fresh) Operation.uploading

/-- The world after these attributes. -/
def World.enriched : World :=
  (World.uploaded.run Router.calm
    (Router.contents.deliver Enrichment.topic (Enrichment.nested 1))).2

def Surroundings.later : Surroundings := { Router.calm with clock := fun n => .ofNat n }

/-- Nulls that are merged again take nothing away. -/
theorem redelivery_harmless_nested :
    ∃ os w, World.enriched.run .later (Router.contents.consume
        [(Enrichment.topic, Enrichment.nested 2), (Enrichment.topic, Enrichment.nested 3)]) =
      (some os, w) ∧ (∀ o ∈ os, o.disposition = .processed) ∧
      w.store.contents.map (List.map Content.undated) =
        some [⟨"c", "b", "k", 1, "a/b", 1, "\x7b\"a\":\x7b\"y\":2\x7d,\"b\":\x7b\x7d\x7d", 0⟩] ∧
      w.store.letters = World.enriched.store.letters := by
  obtain ⟨t, u, h, -⟩ :=
    Operation.sequence_history Router.calm (.new .fresh) Operation.uploading []
  rw [List.append_nil] at h
  have hops : ∀ o ∈ Operation.uploading, o.HandlesContents := by
    intro o ho
    rcases List.mem_cons.1 ho with rfl | ho
    · exact ⟨_, _, Router.forContents_contents⟩
    · obtain rfl := List.mem_singleton.1 ho
      exact ⟨_, _, Router.forContents_contents⟩
  have hp : (World.uploaded.run Router.calm
      (Router.contents.deliver Enrichment.topic (Enrichment.nested 1))).1.map
        Outcome.disposition = some .processed := by
    decide +kernel
  obtain ⟨o, ho, hp⟩ := Option.map_eq_some_iff.1 hp
  have hempty : (World.new .fresh).store.contents = some [] := rfl
  have hrun : World.uploaded.run Router.calm
      (Router.contents.deliver Enrichment.topic (Enrichment.nested 1)) = (some o, .enriched) :=
    Prod.ext ho rfl
  have hlater : ∀ n q, q.changesContents = true → Surroundings.later.store n q = .accepts :=
    fun _ _ _ => rfl
  have hagain : ∀ m ∈ [Enrichment.nested 2, Enrichment.nested 3],
      m.body = (Enrichment.nested 1).body := by
    intro m hm
    rcases List.mem_cons.1 hm with rfl | hm
    · rfl
    · rw [List.mem_singleton.1 hm]
      rfl
  obtain ⟨os, w, hrun, -, hall, hcontents, hletters⟩ := redelivery_harmless hops hempty h
    Router.forContents_contents hrun hp hlater hagain
  refine ⟨os, w, hrun, hall, hcontents.trans ?_, hletters⟩
  decide +kernel

end DeadLetters
