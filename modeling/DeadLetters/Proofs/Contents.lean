import DeadLetters.Proofs.Json.Merging
import DeadLetters.Proofs.Json.Typed
import DeadLetters.Proofs.Revalidation
import DeadLetters.Proofs.Writing

/-!
# Content metadata as the fold of what was processed

Messages of the content topics are handled one after another, and anything is done with dead letters
beside them.  What the store tells of a piece of content afterwards is the last upload of it that was
processed, with the attributes that the processed enrichments since the first upload give, merged in
order.
-/

namespace DeadLetters

open Program

namespace Topic

/-! ## Attributes that were read -/

def Enrichment.value (e : Enrichment) : Json.Value := .object e.attributes.entries

theorem Enrichment.patch_eq (e : Enrichment) : e.patch = e.value.text := by
  rw [patch, Json.Value.text, value, Json.Value.chars, Json.memberValues_eq]
  rfl

/-- How deep attributes may be nested. -/
def Enrichment.attributeDepth : Nat := Json.depthLimit - 1

theorem Enrichment.soundDefaults : Json.SoundDefaults attributeDepth record.fields := by
  intro f hf a ha
  rcases List.mem_cons.1 hf with rfl | hf
  · cases ha
  · obtain rfl := List.mem_singleton.1 hf
    cases ha
    exact ⟨by decide, fun e he => by cases he⟩

/-- What has been read as attributes is not nested deeper than the text may be. -/
theorem Enrichment.sound_of_parse {body : String} {e : Enrichment}
    (h : schema.parse body = .ok e) : e.value.Sound attributeDepth := by
  obtain ⟨row, rfl, hrow⟩ := Json.Record.sound_parse soundDefaults (Schema.parse_eq_ok_iff.1 h).1
  obtain ⟨contentId, attributes, ⟨⟩⟩ := row
  have hentries : ∀ e ∈ attributes.entries, e.2.Sound (attributeDepth - 1) := hrow.2.1.2
  exact Json.Value.sound_object_iff.2 ⟨attributes.sorted, hentries⟩

/-! ## News -/

/-- What a processed message tells of a piece of content. -/
inductive News where
  | uploaded (u : Upload)
  | enriched (e : Enrichment)

namespace News

/-- The upload of the content, if that is the news. -/
def upload? (id : String) : News → Option Upload
  | uploaded u => if u.contentId = id then some u else none
  | enriched _ => none

/-- The attributes for the content, if they are the news. -/
def patch? (id : String) : News → Option Json.Value
  | uploaded _ => none
  | enriched e => if e.contentId = id then some e.value else none

/-- What a message tells if it is processed. -/
def ofMessage? (topic : String) (m : Message String) : Option News :=
  if topic = Upload.topic then (Upload.schema.parse m.body).toOption.map uploaded
  else if topic = Enrichment.topic then (Enrichment.schema.parse m.body).toOption.map enriched
  else none

def ofOutcome? (topic : String) (m : Message String) (o : Outcome) : Option News :=
  match o.disposition with
  | .processed => ofMessage? topic m
  | _ => none

/-- What the messages tell that have been processed. -/
def ofOutcomes (ms : List (String × Message String)) (os : List Outcome) : List News :=
  (ms.zip os).filterMap fun x => ofOutcome? x.1.1 x.1.2 x.2

def lastUpload? (id : String) (news : List News) : Option Upload :=
  (news.filterMap (upload? id)).getLast?

/-- The attributes for the content since its first upload, merged in order. -/
def attributes (id : String) (news : List News) : Json.Value :=
  ((news.dropWhile fun n => (n.upload? id).isNone).filterMap (patch? id)).foldl
    Json.Value.mergePatch (.object [])

end News

end Topic

open Topic

/-- The content has the facts of an upload. -/
structure Content.Records (c : Content) (u : Upload) : Prop where
  id : c.id = u.contentId
  bucket : c.bucket = u.bucket
  objectKey : c.objectKey = u.key
  sizeBytes : c.sizeBytes.toInt = u.sizeBytes.toNat
  contentType : c.contentType = u.contentType
  uploadedAt : c.uploadedAt = u.uploadedAt

/-- What is told of a piece of content after some news. -/
inductive Told (news : List News) (id : String) : Option Content → Prop
  | unknown (h : News.lastUpload? id news = none) : Told news id none
  | known {u : Upload} {c : Content} (h : News.lastUpload? id news = some u) (hc : c.Records u)
      (ha : Json.parseValue c.attributes = .ok (News.attributes id news)) : Told news id (some c)

/-! ## What the rows tell -/

/-- The attributes are the text of a value, with its members in whatever order. -/
def Content.Holds (c : Content) (v : Json.Value) : Prop :=
  ∃ w : Json.Value, c.attributes = w.text ∧ w.sorted = v ∧ w.Distinct ∧
    w.Within Json.Number.Integral Enrichment.attributeDepth

/-- What the rows tell of a piece of content after some news. -/
inductive Kept (news : List News) (id : String) : Option Content → Prop
  | unknown (h : News.lastUpload? id news = none) : Kept news id none
  | known {u : Upload} {c : Content} (h : News.lastUpload? id news = some u) (hc : c.Records u)
      (ha : c.Holds (News.attributes id news)) : Kept news id (some c)

theorem Kept.told {news : List News} {id : String} {o : Option Content} (h : Kept news id o) :
    Told news id o := by
  cases h with
  | unknown h => exact .unknown h
  | known h hc ha =>
    obtain ⟨w, hw, hsorted, -, hwithin⟩ := ha
    refine .known h hc ?_
    rw [hw, ← hsorted]
    exact Json.parseValue_unordered (Nat.le_succ_of_le hwithin.depth_le) hwithin.all

namespace Topic.News

variable {id : String} {news : List News} {n : News}

theorem ofOutcome?_of_processed {topic : String} {m : Message String} {o : Outcome}
    (h : o.disposition = .processed) : ofOutcome? topic m o = ofMessage? topic m := by
  rw [ofOutcome?, h]

theorem ofOutcome?_of_not_processed {topic : String} {m : Message String} {o : Outcome}
    (h : o.disposition ≠ .processed) : ofOutcome? topic m o = none := by
  unfold ofOutcome?
  split
  · next hp => exact absurd hp h
  · rfl

theorem lastUpload?_append :
    lastUpload? id (news ++ [n]) = (n.upload? id).or (lastUpload? id news) := by
  rw [lastUpload?, List.filterMap_append, List.getLast?_append, lastUpload?]
  cases h : n.upload? id <;> simp [h]

theorem lastUpload?_eq_none_iff :
    lastUpload? id news = none ↔ (news.dropWhile fun n => (n.upload? id).isNone) = [] := by
  rw [lastUpload?, List.getLast?_eq_none_iff, List.filterMap_eq_nil_iff, List.dropWhile_eq_nil_iff]
  simp

/-- Attributes count from the first upload on. -/
theorem attributes_append_of_unknown (h : lastUpload? id news = none) :
    attributes id (news ++ [n]) = .object [] := by
  rw [attributes, List.dropWhile_append, lastUpload?_eq_none_iff.1 h]
  cases n with
  | uploaded u =>
    have hnone : [uploaded u].filterMap (patch? id) = [] := rfl
    by_cases hu : u.contentId = id <;> simp [upload?, hu, hnone]
  | enriched e => rfl

theorem attributes_append_of_known (h : lastUpload? id news ≠ none) :
    attributes id (news ++ [n]) =
      (n.patch? id).elim (attributes id news) (attributes id news).mergePatch := by
  rw [attributes, List.dropWhile_append, if_neg, List.filterMap_append, List.foldl_append,
    attributes]
  · cases hp : n.patch? id <;> simp [hp]
  · rw [List.isEmpty_iff]
    exact mt lastUpload?_eq_none_iff.2 h

end Topic.News

/-! ## Writes -/

section Writes

variable {news : List News} {cs : List Content} {u : Upload} {e : Enrichment} {c : Content}
  {now : Int64}

/-- News of other content. -/
theorem Kept.append {n : News} {id : String} {o : Option Content} (h : Kept news id o)
    (hu : n.upload? id = none) (hp : n.patch? id = none) : Kept (news ++ [n]) id o := by
  have hlast : News.lastUpload? id (news ++ [n]) = News.lastUpload? id news := by
    rw [News.lastUpload?_append, hu, Option.none_or]
  cases h with
  | unknown h => exact .unknown (hlast.trans h)
  | known h hc ha =>
    refine .known (hlast.trans h) hc ?_
    rw [News.attributes_append_of_known (by simp [h]), hp]
    exact ha

theorem records_contentOf (h : Writer.contentOf u now = .ok c) : c.Records u := by
  unfold Writer.contentOf at h
  split at h
  · next hfits =>
    cases h
    exact ⟨rfl, rfl, rfl, Int64.toInt_ofNat_of_lt hfits, rfl, rfl⟩
  · cases h

theorem holds_contentOf (h : Writer.contentOf u now = .ok c) : c.Holds (.object []) := by
  refine ⟨.object [], ?_, rfl, ⟨List.nodup_nil, trivial⟩, Nat.le_add_left 1 _, trivial⟩
  unfold Writer.contentOf at h
  split at h
  · cases h
    rfl
  · cases h

/-- Rows in which every piece of content is as the news tell. -/
def KeptAll (news : List News) (cs : List Content) : Prop :=
  ∀ id, Kept news id (Store.findContent id cs)

theorem keptAll_uploaded (h : KeptAll news cs) (hc : Writer.contentOf u now = .ok c) :
    KeptAll (news ++ [.uploaded u]) (Store.recorded c cs) := by
  intro id
  have hrecords := records_contentOf hc
  have hkept := h id
  rw [Store.findContent_recorded]
  by_cases hid : id = c.id
  · have hlast : News.lastUpload? id (news ++ [.uploaded u]) = some u := by
      rw [News.lastUpload?_append, News.upload?, if_pos (by rw [hid, hrecords.id])]
      rfl
    rw [if_pos hid]
    generalize Store.findContent id cs = o at hkept
    cases hkept with
    | unknown hnone =>
      refine .known hlast hrecords ?_
      rw [News.attributes_append_of_unknown hnone]
      exact holds_contentOf hc
    | known hsome _ ha =>
      -- The row keeps its attributes and takes all else from the upload.
      refine .known hlast ⟨hrecords.id, hrecords.bucket, hrecords.objectKey, hrecords.sizeBytes,
        hrecords.contentType, hrecords.uploadedAt⟩ ?_
      rw [News.attributes_append_of_known (by simp [hsome])]
      exact ha
  · rw [if_neg hid]
    refine hkept.append ?_ rfl
    rw [News.upload?, if_neg (by rw [← hrecords.id]; exact Ne.symm hid)]

theorem keptAll_enriched (h : KeptAll news cs) (hs : e.value.Sound Enrichment.attributeDepth)
    (hi : e.value.All Json.Number.Integral) (hc : Store.findContent e.contentId cs = some c)
    {attributes : String} (hp : Json.patchText c.attributes e.patch = .ok attributes) :
    KeptAll (news ++ [.enriched e]) (Store.patched e.contentId attributes now cs) := by
  intro id
  have hkept := h id
  rw [Store.findContent_patched]
  by_cases hid : id = e.contentId
  · subst hid
    rw [hc] at hkept ⊢
    cases hkept with
    | @known u _ hlast hrecords ha =>
      obtain ⟨w, hw, hsorted, hdistinct, hwithin⟩ := ha
      have hpd : e.value.Distinct := Json.distinct_of_wellFormed hs.wellFormed
      have hpatch := Json.patchText_text hdistinct hpd
        (Nat.le_trans hwithin.depth_le (by decide)) (Nat.le_trans hs.depth_le (by decide))
      rw [← hw, ← Enrichment.patch_eq, hp, Except.ok.injEq] at hpatch
      rw [Option.map_some, if_pos rfl]
      refine .known (u := u) ?_ ⟨hrecords.id, hrecords.bucket, hrecords.objectKey,
        hrecords.sizeBytes, hrecords.contentType, hrecords.uploadedAt⟩ ?_
      · rw [News.lastUpload?_append]
        exact hlast
      · refine ⟨w.merged e.value, hpatch, ?_, Json.distinct_merged hdistinct hpd,
          Json.within_merged hwithin ⟨hs.depth_le, hi⟩⟩
        rw [Json.sorted_merged hdistinct hs.wellFormed, hsorted,
          News.attributes_append_of_known (by simp [hlast]), News.patch?, if_pos rfl]
        rfl
  · have hother : (Store.findContent id cs).map (fun d => if id = e.contentId then
        { d with attributes := attributes, updatedAt := now } else d) =
        Store.findContent id cs := by
      simp [hid]
    rw [hother]
    refine hkept.append rfl ?_
    rw [News.patch?, if_neg (Ne.symm hid)]

end Writes

/-! ## Runs -/

/-- Handles messages of any topics one after another. -/
def Router.consume (r : Router) : List (String × Message String) → Program (List Outcome)
  | [] => done []
  | (topic, m) :: ms =>
    (r.deliver topic m).bind fun o => (r.consume ms).bind fun os => done (o :: os)

section Runs

variable {service : Service} {limits : Limits} {r : Router} {s s' : Store} {t : List Event}

/-- Programs other than the first write no content metadata. -/
def OthersAloof (t : List Event) : Prop :=
  ∀ e ∈ t, e.thread ≠ 0 → e.request.changesContents = false

theorem OthersAloof.writes_own (h : OthersAloof t) :
    writes (t.map Event.exchange) = writes (own 0 t) := by
  induction t with
  | nil => rfl
  | cons e t ih =>
    have hrest : OthersAloof t := fun e he => h e (List.mem_cons_of_mem _ he)
    rw [own_cons, List.map_cons]
    by_cases he : e.thread = 0
    · simp only [writes, List.filter_cons] at ih ⊢
      rw [if_pos he, List.filter_cons, ih hrest]
    · have hx := Exchange.not_writes (h e List.mem_cons_self he)
      rw [if_neg he]
      exact (List.filter_cons_of_neg (by simp [hx])).trans (ih hrest)

theorem History.contents_of_quiet (h : History s t s') (hheard : ContentsHeard t)
    (hw : writes (t.map Event.exchange) = []) : s'.contents = s.contents := by
  induction h with
  | nil => rfl
  | @cons e t s he _ ih =>
    have hx : e.exchange.writes = false := by
      simpa using List.filter_eq_nil_iff.1 hw e.exchange List.mem_cons_self
    rw [List.map_cons, writes, List.filter_cons_of_neg (by simp [hx])] at hw
    rw [ih (fun e he => hheard e (List.mem_cons_of_mem _ he)) hw]
    exact contents_of_not_writes hheard List.mem_cons_self he hx

/-- The only write takes place while the rows are as at first, and leaves them as in the end. -/
theorem History.contents_of_one {x : Exchange} (h : History s t s') (hheard : ContentsHeard t)
    (hw : writes (t.map Event.exchange) = [x]) :
    ∃ m m', m.contents = s.contents ∧ Reacts m x m' ∧ s'.contents = m'.contents := by
  obtain ⟨b, c, ht, hb, -, hc⟩ := List.filter_eq_cons_iff.1 hw
  obtain ⟨u, v', rfl, rfl, hv⟩ := List.map_eq_append_iff.1 ht
  obtain ⟨e, v, rfl, rfl, rfl⟩ := List.map_eq_cons_iff.1 hv
  obtain ⟨hbefore, he, hafter⟩ := h.at
  refine ⟨e.before, e.after, ?_, he, ?_⟩
  · exact hbefore.contents_of_quiet (fun e he => hheard e (List.mem_append_left _ he))
      (List.filter_eq_nil_iff.2 hb)
  · exact hafter.contents_of_quiet (fun e he => hheard e (by simp [he])) hc

/-- A history at a point between two exchanges of a program. -/
theorem exists_of_own_append {i : Nat} {u v : List Exchange} (h : own i t = u ++ v) :
    ∃ t₁ t₂, t = t₁ ++ t₂ ∧ own i t₁ = u ∧ own i t₂ = v := by
  obtain ⟨f₁, f₂, hf, rfl, rfl⟩ := List.map_eq_append_iff.1 h
  obtain ⟨t₁, t₂, rfl, rfl, rfl⟩ := List.filter_eq_append_iff.1 hf
  exact ⟨t₁, t₂, rfl, rfl, rfl⟩

/-- Enrichments are news of content only if it has been uploaded before. -/
def Grounded (news : List News) : Prop :=
  ∀ past e rest, news = past ++ .enriched e :: rest →
    ∃ u, News.uploaded u ∈ past ∧ u.contentId = e.contentId

theorem exists_uploaded {news : List News} {id : String} (h : News.lastUpload? id news ≠ none) :
    ∃ u, News.uploaded u ∈ news ∧ u.contentId = id := by
  obtain ⟨u, hu⟩ := Option.ne_none_iff_exists'.1 h
  obtain ⟨n, hn, hnu⟩ := List.mem_filterMap.1 (List.mem_of_getLast? hu)
  cases n with
  | uploaded u' =>
    rw [News.upload?] at hnu
    split at hnu
    · next hid => exact ⟨u', hn, hid⟩
    · cases hnu
  | enriched e => cases hnu

theorem Grounded.append {news : List News} {n : News} (h : Grounded news)
    (hn : ∀ e, n = .enriched e → News.lastUpload? e.contentId news ≠ none) :
    Grounded (news ++ [n]) := by
  intro past e rest hp
  rcases rest.eq_nil_or_concat with rfl | ⟨rest, n', rfl⟩
  · obtain ⟨rfl, hne⟩ := List.append_inj' hp rfl
    exact exists_uploaded (hn e (List.cons.inj hne).1)
  · rw [List.concat_eq_append, ← List.cons_append, ← List.append_assoc] at hp
    exact h past e rest (List.append_inj' hp rfl).1

/-- What is known of the rows after some news. -/
structure Known (news : List News) (s : Store) : Prop where
  rows : ∃ cs, s.contents = some cs ∧ KeptAll news cs
  grounded : Grounded news

/-- What is asked of the messages: the numbers in attributes are integers of 64 bits. -/
def IntegralAttributes (topic : String) (m : Message String) : Prop :=
  topic = Enrichment.topic → ∀ e, Enrichment.schema.parse m.body = .ok e →
    e.value.All Json.Number.Integral

/-- A delivery adds its news. -/
theorem Known.deliver {news : List News} {topic : String} {m : Message String} {o : Outcome}
    (hk : Known news s) (hr : r.ForContents .store service limits) (h : History s t s')
    (hheard : ContentsHeard t) (haloof : OthersAloof t) (hi : IntegralAttributes topic m)
    (ho : (r.deliver topic m).Goes (own 0 t) (done o)) :
    Known (news ++ (News.ofOutcome? topic m o).toList) s' := by
  obtain ⟨cs, hcs, hkept⟩ := hk.rows
  have hwrote := Router.deliver_writes hr ho
  rw [← haloof.writes_own] at hwrote
  generalize hw : writes (t.map Event.exchange) = w at hwrote
  generalize hd : o.disposition = d at hwrote
  cases hwrote with
  | @uploaded u w ht hu hput =>
    obtain ⟨now, c, hc, rfl⟩ := hput
    obtain ⟨m₁, m₂, hm, hreacts, hs'⟩ := h.contents_of_one hheard hw
    obtain ⟨cs', hcs', rfl⟩ :=
      Store.putContent_eq_ok_iff.1 (Store.answer_eq_ok_iff.1 hreacts.answer_eq).2
    obtain rfl : cs' = cs := Option.some.inj (hcs'.symm.trans (hm.trans hcs))
    have hnews : News.ofOutcome? topic m o = some (.uploaded u) := by
      rw [News.ofOutcome?_of_processed hd, News.ofMessage?, if_pos ht, hu]
      rfl
    rw [hnews]
    exact ⟨⟨_, hs', keptAll_uploaded hkept hc⟩, hk.grounded.append nofun⟩
  | @enriched e w ht he hmerge =>
    obtain ⟨now, rfl⟩ := hmerge
    obtain ⟨m₁, m₂, hm, hreacts, hs'⟩ := h.contents_of_one hheard hw
    obtain ⟨cs', hcs', ⟨-, hfalse, -⟩ | ⟨c, attributes, hc, hp, -, rfl⟩⟩ :=
      Store.mergeContent_eq_ok_iff.1 (Store.answer_eq_ok_iff.1 hreacts.answer_eq).2
    · cases hfalse
    obtain rfl : cs' = cs := Option.some.inj (hcs'.symm.trans (hm.trans hcs))
    have hnews : News.ofOutcome? topic m o = some (.enriched e) := by
      rw [News.ofOutcome?_of_processed hd, News.ofMessage?, if_neg (by rw [ht]; decide), if_pos ht,
        he]
      rfl
    have hknown : News.lastUpload? e.contentId news ≠ none := by
      have hrow := hkept e.contentId
      rw [hc] at hrow
      cases hrow with
      | known hlast => simp [hlast]
    rw [hnews]
    refine ⟨⟨_, hs', keptAll_enriched hkept (Enrichment.sound_of_parse he) (hi ht e he) hc hp⟩,
      hk.grounded.append ?_⟩
    rintro e' he'
    cases he'
    exact hknown
  | nothing hne =>
    rw [News.ofOutcome?_of_not_processed (hd ▸ hne), Option.toList, List.append_nil]
    exact ⟨⟨cs, (h.contents_of_quiet hheard hw).trans hcs, hkept⟩, hk.grounded⟩

theorem Known.consume {news : List News} {ms : List (String × Message String)} {os : List Outcome}
    (hk : Known news s) (hr : r.ForContents .store service limits) (h : History s t s')
    (hheard : ContentsHeard t) (haloof : OthersAloof t)
    (hi : ∀ m ∈ ms, IntegralAttributes m.1 m.2)
    (ho : (r.consume ms).Goes (own 0 t) (done os)) :
    Known (news ++ News.ofOutcomes ms os) s' := by
  induction ms generalizing news s t os with
  | nil =>
    obtain ⟨hnil, ho⟩ := goes_done_iff.1 ho
    obtain rfl := done.inj ho
    obtain ⟨cs, hcs, hkept⟩ := hk.rows
    have hquiet : writes (t.map Event.exchange) = [] := by
      rw [haloof.writes_own, hnil]
      rfl
    rw [News.ofOutcomes, List.zip_nil_left, List.filterMap_nil, List.append_nil]
    exact ⟨⟨cs, (h.contents_of_quiet hheard hquiet).trans hcs, hkept⟩, hk.grounded⟩
  | cons m ms ih =>
    obtain ⟨u₁, u, o, hu, h₁, hrest⟩ := goes_bind_done_iff.1 ho
    obtain ⟨u₂, u₃, os, rfl, h₂, h₃⟩ := goes_bind_done_iff.1 hrest
    obtain ⟨rfl, hos⟩ := goes_done_iff.1 h₃
    obtain rfl := done.inj hos
    rw [List.append_nil] at hu
    obtain ⟨t₁, t₂, rfl, rfl, rfl⟩ := exists_of_own_append hu
    obtain ⟨m₁, hfirst, hlast⟩ := history_append_iff.1 h
    have hnext := hk.deliver hr hfirst (fun e he => hheard e (List.mem_append_left _ he))
      (fun e he => haloof e (List.mem_append_left _ he)) (hi m List.mem_cons_self) h₁
    have hdone := ih hnext hlast (fun e he => hheard e (List.mem_append_right _ he))
      (fun e he => haloof e (List.mem_append_right _ he))
      (fun m hm => hi m (List.mem_cons_of_mem _ hm)) h₂
    have hnews : News.ofOutcomes (m :: ms) (o :: os) =
        (News.ofOutcome? m.1 m.2 o).toList ++ News.ofOutcomes ms os := by
      rw [News.ofOutcomes, List.zip_cons_cons, List.filterMap_cons]
      dsimp only
      cases News.ofOutcome? m.1 m.2 o <;> rfl
    rwa [hnews, ← List.append_assoc]

theorem History.closed (h : History s t s') : s'.closed = s.closed := by
  induction h with
  | nil => rfl
  | cons he _ ih => exact ih.trans he.closed

theorem answer_getContent {cs : List Content} (hopen : s.closed = false)
    (hcs : s.contents = some cs) (id : String) :
    (s.answer (.getContent id)).1 = .ok (Store.findContent id cs) := by
  refine congrArg Prod.fst (Store.answer_eq_ok_iff.2 ⟨hopen, ?_⟩ :
    s.answer (.getContent id) = (.ok (Store.findContent id cs), s))
  rw [Store.perform, Store.getContent, Store.withContents, hcs]
  rfl

theorem Router.ForContents.ends_consume (hr : r.ForContents .store service limits)
    (ms : List (String × Message String)) : (r.consume ms).Ends := by
  induction ms with
  | nil => trivial
  | cons m ms ih => exact (hr.ends_deliver m.1 m.2).bind fun _ => ih.bind fun _ => trivial

/-- Operations on dead letters, beside the handling of messages, write no content metadata. -/
theorem othersAloof_of_operations {p : Program (List Outcome)} {ops : List Operation}
    (hops : ∀ o ∈ ops, o.Aloof) (h : SideBySide (⟨p⟩ :: ops.map Operation.thread) s t s') :
    OthersAloof t := by
  intro e he hne
  obtain ⟨th, hth, hasks⟩ := h.exists_thread he
  obtain ⟨i, hi⟩ := Nat.exists_eq_succ_of_ne_zero hne
  rw [hi, Nat.succ_eq_add_one, List.getElem?_cons_succ, List.getElem?_map] at hth
  obtain ⟨o, ho, rfl⟩ := Option.map_eq_some_iff.1 hth
  exact hasks _ (Operation.asks_aloof (hops o (List.mem_of_getElem? ho)))

/-- Messages of the content topics are handled one after another on a store without content, beside
operations on dead letters; then the store tells of each piece of content what the messages have
told that were processed. -/
theorem contents_told {env₀ : Surroundings} {w₀ : World} {sink : Sink} {ackTimeout : Nat}
    (hr : (w₀.run env₀ (Router.registerAll (handlers .store service limits)
      (Router.empty sink ackTimeout))).1 = some r)
    {ms : List (String × Message String)} (hi : ∀ m ∈ ms, IntegralAttributes m.1 m.2)
    {ops : List Operation} (hops : ∀ o ∈ ops, o.Aloof)
    (hopen : s.closed = false) (hempty : s.contents = some [])
    (h : SideBySide (⟨r.consume ms⟩ :: ops.map Operation.thread) s t s')
    (hheard : ContentsHeard t) :
    (r.consume ms).Ends ∧
      (∀ e ∈ t, e.thread ≠ 0 → e.after.contents = e.before.contents) ∧
      ∀ os, (r.consume ms).Goes (own 0 t) (done os) →
        Grounded (News.ofOutcomes ms os) ∧
        ∀ id, ∃ o, (s'.answer (.getContent id)).1 = .ok o ∧ Told (News.ofOutcomes ms os) id o := by
  have hcontents := Router.forContents_of_registerAll hr
  have haloof := othersAloof_of_operations hops h
  refine ⟨hcontents.ends_consume ms, fun e he hne => ?_, fun os hos => ?_⟩
  · exact (h.history.reacts e he).contents (haloof e he hne)
  · have hstart : Known [] s :=
      ⟨⟨[], hempty, fun id => .unknown rfl⟩, fun past e rest hp => by simp at hp⟩
    have hend := hstart.consume hcontents h.history hheard haloof hi hos
    obtain ⟨cs, hcs, hkept⟩ := hend.rows
    refine ⟨hend.grounded, fun id => ⟨_, answer_getContent ?_ hcs id, (hkept id).told⟩⟩
    rw [h.history.closed, hopen]

end Runs

/-! ## A run -/

instance (topic : String) (m : Message String) : Decidable (IntegralAttributes topic m) :=
  match h : Enrichment.schema.parse m.body with
  | .error _ => .isTrue fun _ e he => by cases h.symm.trans he
  | .ok e =>
    decidable_of_iff (topic = Enrichment.topic → e.value.All Json.Number.Integral)
      ⟨fun hi ht e' he => Except.ok.inj (h.symm.trans he) ▸ hi ht, fun hi ht => hi ht e h⟩

/-- In surroundings that accept changes of content metadata, they reach the store. -/
theorem World.Leads.contentsHeard {env : Surroundings} {i : Nat} {w w' : World} {t : List Event}
    (h : World.Leads env i w t w')
    (ha : ∀ n q, q.changesContents = true → env.store n q = .accepts) : ContentsHeard t := by
  intro e he q hq hc
  obtain ⟨v, r, rfl⟩ := h.events e he
  obtain rfl : r = .store q := hq
  simp [event, answer, react, ha _ q hc]

/-- The router of the content topics under the default configuration. -/
def Router.contents : Router :=
  (((World.new .fresh).run calm (registerAll
    (Topic.handlers .store (.ofConfig {}) (.ofConfig {})) (empty .logged 30))).1).getD
      (empty .logged 30)

def Topic.Enrichment.body (attributes : List (String × Json.Value)) : String :=
  record.text ⟨"c", .ofList attributes⟩

/-- Attributes that come too early, an upload, attributes, a second upload, and other attributes. -/
def consumed : List (String × Message String) :=
  [("enriched", .new "1" 1 (Enrichment.body [("a", .null)])),
    ("ingest", .new "2" 1 (Upload.sample 1).text),
    ("enriched", .new "3" 1 (Enrichment.body
      [("a", .object [("x", .number (.int 1)), ("y", .number (.int 2))])])),
    ("ingest", .new "4" 1 (Upload.sample 2).text),
    ("enriched", .new "5" 1 (Enrichment.body
      [("a", .object [("x", .null)]), ("b", .array [.number (.int 3)])]))]

theorem own_cons_threads {t u : List Event} :
    own 0 ((t.map fun e => e.withThread 0) ++ u.map fun e => e.withThread (e.thread + 1)) =
      t.map Event.exchange := by
  have hfirst : ∀ e ∈ t.map fun e => e.withThread 0, e.thread = 0 := by
    intro e he
    obtain ⟨e', -, rfl⟩ := List.mem_map.1 he
    rfl
  have hothers : own 0 (u.map fun e => e.withThread (e.thread + 1)) = [] := by
    simp [own, Event.withThread]
  rw [own_append, own_of_forall hfirst, hothers, List.append_nil, List.map_map]
  rfl

/-- The second upload keeps the attributes, and the last enrichment is merged into them. -/
theorem contents_told_merged :
    ∃ t s' os c v, SideBySide (⟨Router.contents.consume consumed⟩ ::
          [Operation.store (.ofConfig {}) .sample].map Operation.thread) .fresh t s' ∧
      (Router.contents.consume consumed).Goes (own 0 t) (done os) ∧
      (s'.answer (.getContent "c")).1 = .ok (some c) ∧ c.sizeBytes.toInt = 2 ∧
      Json.parseValue c.attributes = .ok v ∧
      v.text = "\x7b\"a\":\x7b\"y\":2\x7d,\"b\":[3]\x7d" := by
  have hr : ((World.new .fresh).run Router.calm (Router.registerAll
      (handlers .store (.ofConfig {}) (.ofConfig {})) (Router.empty .logged 30))).1 =
    some Router.contents := rfl
  obtain ⟨t, hg, hl⟩ :=
    @World.run_goes _ Router.calm 0 (.new .fresh) (Router.contents.consume consumed)
  obtain ⟨os, hos⟩ := @World.exists_result _ Router.calm _
    ((Router.forContents_of_registerAll hr).ends_consume consumed) (World.new .fresh)
  obtain ⟨u₁, u₂, hu, -, -⟩ := Operation.sequence_history Router.calm
    ((World.new .fresh).run Router.calm (Router.contents.consume consumed)).2
    [.store (.ofConfig {}) .sample] []
  have hops : ∀ o ∈ [Operation.store (.ofConfig {}) .sample], o.Aloof := by
    intro o ho
    obtain rfl := List.mem_singleton.1 ho
    trivial
  have h := SideBySide.cons hl.history hg hu
  have haloof := othersAloof_of_operations hops h
  generalize hevents : (t.map fun e => e.withThread 0) ++
    (u₁ ++ u₂).map (fun e => e.withThread (e.thread + 1)) = events at h haloof
  have hheard : ContentsHeard events := by
    intro e he q hq hc
    by_cases hne : e.thread = 0
    · rw [← hevents] at he
      rcases List.mem_append.1 he with he | he
      · obtain ⟨e', he', rfl⟩ := List.mem_map.1 he
        exact hl.contentsHeard (fun _ _ _ => rfl) e' he' q hq hc
      · obtain ⟨e', -, rfl⟩ := List.mem_map.1 he
        cases hne
    · have hquiet := haloof e he hne
      rw [hq] at hquiet
      cases hquiet.symm.trans hc
  obtain ⟨-, -, told⟩ := contents_told hr (by decide +kernel) hops rfl rfl h hheard
  have hgoes : (Router.contents.consume consumed).Goes (own 0 events) (done os) := by
    rw [← hevents, own_cons_threads]
    rwa [hos] at hg
  obtain ⟨-, htold⟩ := told os hgoes
  obtain ⟨o, ho, hc⟩ := htold "c"
  have hlast : ((World.new .fresh).run Router.calm (Router.contents.consume consumed)).1.map
      (fun os => News.lastUpload? "c" (News.ofOutcomes consumed os)) =
        some (some ⟨"c", "b", "k", 2, "a/b", 1⟩) := by
    decide +kernel
  have hattributes : ((World.new .fresh).run Router.calm (Router.contents.consume consumed)).1.map
      (fun os => (News.attributes "c" (News.ofOutcomes consumed os)).text) =
        some "\x7b\"a\":\x7b\"y\":2\x7d,\"b\":[3]\x7d" := by
    decide +kernel
  rw [hos, Option.map_some, Option.some.injEq] at hlast hattributes
  cases hc with
  | unknown hnone =>
    rw [hnone] at hlast
    cases hlast
  | known hsome hrecords hparse =>
    rw [hsome] at hlast
    cases hlast
    exact ⟨_, _, os, _, _, h, hgoes, ho, hrecords.sizeBytes, hparse, hattributes⟩

end DeadLetters
