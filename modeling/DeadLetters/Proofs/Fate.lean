import DeadLetters.Proofs.Writing

/-!
# What becomes of a message

While the store takes all dead letters and all uploads, what becomes of a message of a content topic
is a matter of the message, the limits, and one answer of the store: whether attributes would be
merged.  Only the id of a dead letter and its time of failure come from elsewhere.

    what processing comes to          (Topic.Upload.calls_verdict, Topic.Enrichment.calls_verdict)
    what a failure comes to                                             (Handler.AfterFailure.fate)
    what a delivery comes to, and the dead letter that it adds               (Router.deliver_fate)
-/

namespace DeadLetters

open Program

/-! ## Without ids and times -/

def Disposition.unnamed : Disposition → Disposition
  | deadLettered _ cause => deadLettered "" cause
  | d => d

deriving instance DecidableEq for Disposition

/-- A dead letter without its id and its time. -/
def DeadLetter.unnamed (l : DeadLetter) : DeadLetter := { l with id := "", failedAt := 0 }

/-- The dead letter that was to be inserted. -/
def Exchange.letter? : Exchange → Option DeadLetter
  | ⟨.store (.insert l), _⟩ => some l
  | _ => none

def lettersOf (t : List Exchange) : List DeadLetter := t.filterMap Exchange.letter?

theorem lettersOf_append (t u : List Exchange) : lettersOf (t ++ u) = lettersOf t ++ lettersOf u :=
  List.filterMap_append

theorem Exchange.letter?_eq_none {x : Exchange} (h : x.request.isInsert = false) :
    x.letter? = none := by
  obtain ⟨r, a⟩ := x
  cases r with
  | store q => cases q <;> first | rfl | cases h
  | _ => rfl

theorem lettersOf_only (t : List Exchange) : lettersOf (only Request.isInsert t) = lettersOf t := by
  induction t with
  | nil => rfl
  | cons x t ih =>
    rw [only_cons]
    split
    · rw [lettersOf, List.filterMap_cons, lettersOf, List.filterMap_cons, ← lettersOf, ih,
        lettersOf]
    · next hx =>
      rw [ih, lettersOf, lettersOf, List.filterMap_cons_none]
      exact Exchange.letter?_eq_none (by simpa using hx)

theorem Program.Goes.lettersOf_eq_nil {α : Type} {p q : Program α} {t : List Exchange}
    (h : p.Goes t q) (hp : p.Asks fun y => y.isInsert = false) : lettersOf t = [] := by
  rw [← lettersOf_only, h.only_eq_nil hp]
  rfl

/-! ## Handling -/

namespace Handler

variable {β : Type} {p : Processor β} {service : Service} {limits : Limits} {topic : String}
  {m : Message String} {f : Failure} {d : Disposition} {t : List Exchange}

instance (limits : Limits) (m : Message String) (f : Failure) : Decidable (GivesUp limits m f) :=
  inferInstanceAs (Decidable (_ ∨ _))

/-- What becomes of a message if processing it comes to this, and the dead letters that are added,
if every one is taken. -/
def fate (limits : Limits) (topic : String) (m : Message String) :
    Except Failure Unit → Disposition × List DeadLetter
  | .ok () => (.processed, [])
  | .error f =>
    if GivesUp limits m f then
      (.deadLettered "" (cause f).kind,
        [(Service.draft (.capture m.body) (cause f) (.ofMessage topic m) 0).letter "" 0])
    else (.retry .processing f.detail, [])

/-- A disposition and the exchanges before it are as a fate tells, up to ids and times. -/
def Meets (d : Disposition) (t : List Exchange) (fate : Disposition × List DeadLetter) : Prop :=
  d.unnamed = fate.1 ∧ (lettersOf t).map DeadLetter.unnamed = fate.2

def Inserted (t : List Exchange) : Prop :=
  ∀ l a, (⟨.store (.insert l), a⟩ : Exchange) ∈ t → a = some (.ok ())

theorem AfterFailure.fate (h : AfterFailure limits topic m f t d)
    (ht : Text.isBlankText topic = false) (hi : Inserted t) :
    Meets d t (fate limits topic m (.error f)) := by
  rw [Handler.fate]
  cases h with
  | retried hn =>
    rw [if_neg hn]
    exact ⟨rfl, rfl⟩
  | stored hg hs =>
    rw [if_pos hg]
    cases hs with
    | stored => exact ⟨rfl, rfl⟩
  | unstored kind reason hg hs ho =>
    cases hs with
    | rejected f' hm => exact absurd (Service.missingFields_draft ht) hm
    | stored id => exact absurd rfl (ho id)
    | refused => cases hi _ _ (List.mem_singleton_self _)
    | unanswered => cases hi _ _ (List.mem_singleton_self _)

/-- A message meets its fate if processing it comes to `v`. -/
theorem handleWith_fate {v : Except Failure Unit} (hp : p.KeepsOut)
    (ht : Text.isBlankText p.topic = false)
    (hv : ∀ call o, p.Calls m call o → call <+: t → o = some v) (hi : Inserted t)
    (h : (handleWith p service limits m).Goes t (done d)) :
    Meets d t (fate limits p.topic m v) := by
  obtain ⟨call, rest, o, rfl, hcalls, -, hend⟩ := handleWith_calls h
  obtain rfl := hv call o hcalls (List.prefix_append call rest)
  have hquiet : lettersOf call = [] := by
    cases hcalls with
    | rejected => rfl
    | ended _ hg => exact hg.lettersOf_eq_nil (hp.not_insert _)
  rcases hend with ⟨ho, rfl, rfl⟩ | ⟨f, hf, hafter⟩
  · obtain rfl := Option.some.inj ho
    rw [List.append_nil]
    exact ⟨rfl, congrArg (List.map DeadLetter.unnamed) hquiet⟩
  · obtain rfl : v = .error f := hf
    have hmeets := hafter.fate ht fun l a hl =>
      hi l a (List.mem_append_right call (mem_only.1 hl).1)
    rwa [Meets, lettersOf_only, ← List.nil_append (lettersOf rest), ← hquiet,
      ← lettersOf_append] at hmeets

end Handler

/-! ## Processing -/

namespace Topic

variable {s : Store} {m : Message String} {call : List Exchange}
  {o : Option (Except Failure Unit)}

/-- What writing an upload comes to where it is taken. -/
def Upload.verdict (u : Upload) : Except Failure Unit := (Writer.contentOf u 0).map fun _ => ()

/-- What merging attributes comes to on a store. -/
def Enrichment.verdict (s : Store) (e : Enrichment) : Except Failure Unit :=
  e.outcome (s.answer (.mergeContent e.contentId e.patch 0)).1

/-- What processing a message of a content topic comes to on a store. -/
def verdict (topic : String) (s : Store) (body : String) : Except Failure Unit :=
  if topic = Upload.topic then (Upload.schema.parse body).bind Upload.verdict
  else (Enrichment.schema.parse body).bind (Enrichment.verdict s)

theorem Upload.verdict_eq (u : Upload) (now : Int64) :
    u.verdict = (Writer.contentOf u now).map fun _ => () := by
  unfold verdict Writer.contentOf
  split <;> rfl

/-- The time of a merge does not decide what comes of it. -/
theorem answer_mergeContent_time (s : Store) (id patch : String) (time time' : Int64) :
    (s.answer (.mergeContent id patch time)).1 = (s.answer (.mergeContent id patch time')).1 := by
  unfold Store.answer Store.perform Store.mergeContent Store.withContents
  cases s.closed with
  | true => rfl
  | false =>
    cases s.contents with
    | none => rfl
    | some cs =>
      dsimp only
      cases cs.find? fun c => c.id == id with
      | none => rfl
      | some c =>
        dsimp only
        cases Json.patchText c.attributes patch with
        | error f => cases f <;> rfl
        | ok attributes => rfl

/-- What changes of content metadata are answered: uploads are written, and attributes are merged if
the store would merge them. -/
structure Granted (topic : String) (s : Store) (t : List Exchange) : Prop where
  put : ∀ c a, (⟨.store (.putContent c), a⟩ : Exchange) ∈ t → a = some (.ok ())
  merge : topic = Enrichment.topic → ∀ id patch time a,
    (⟨.store (.mergeContent id patch time), a⟩ : Exchange) ∈ t →
      a = some (s.answer (.mergeContent id patch time)).1

theorem Granted.of_subset {topic : String} {t u : List Exchange} (h : Granted topic s t)
    (hu : u ⊆ t) : Granted topic s u :=
  ⟨fun c a hx => h.put c a (hu hx), fun ht id patch time a hx => h.merge ht id patch time a (hu hx)⟩

theorem Upload.calls_verdict (h : (processor .store).Calls m call o)
    (hg : Granted topic s call) : o = some (Topic.verdict topic s m.body) := by
  rw [Topic.verdict, if_pos rfl]
  cases h with
  | @rejected f he =>
    have he' : schema.parse m.body = .error f := he
    rw [he']
    rfl
  | @ended u _ _ hb hgoes =>
    have hb' : schema.parse m.body = .ok u := hb
    rw [hb']
    show o = some u.verdict
    rcases process_asks hgoes with ⟨now, f, hf, -, rfl⟩ | ⟨now, c, a, hc, hasked, rfl⟩
    · rw [verdict_eq u now, show Writer.contentOf u now = .error f from hf]
      rfl
    · have hx : (⟨.store (.putContent c), a⟩ : Exchange) ∈ asked call := by simp [hasked]
      rw [hg.put c a (mem_only.1 hx).1, verdict_eq u now,
        show Writer.contentOf u now = .ok c from hc]
      rfl

theorem Enrichment.calls_verdict (h : (processor .store).Calls m call o)
    (hg : Granted topic s call) : o = some (Topic.verdict topic s m.body) := by
  rw [Topic.verdict, if_neg (by decide)]
  cases h with
  | @rejected f he =>
    have he' : schema.parse m.body = .error f := he
    rw [he']
    rfl
  | @ended e _ _ hb hgoes =>
    have hb' : schema.parse m.body = .ok e := hb
    rw [hb']
    show o = some (e.verdict s)
    obtain ⟨now, a, hasked, rfl⟩ := process_asks hgoes
    have hx : (⟨.store (.mergeContent e.contentId e.patch now), a⟩ : Exchange) ∈ asked call := by
      rw [hasked]
      exact List.mem_singleton_self _
    rw [hg.merge rfl _ _ _ a (mem_only.1 hx).1, verdict, answer_mergeContent_time s _ _ 0 now]
    rfl

end Topic

/-! ## Delivering -/

/-- What a delivery comes to, whatever is answered to other requests than changes of the store. -/
theorem Router.deliver_fate {r : Router} {service : Service} {limits : Limits} {topic : String}
    {s : Store} {m : Message String} {t : List Exchange} {o : Outcome}
    (hr : r.ForContents .store service limits)
    (ht : topic = Topic.Upload.topic ∨ topic = Topic.Enrichment.topic)
    (hg : Topic.Granted topic s t) (hi : Handler.Inserted t)
    (h : (r.deliver topic m).Goes t (done o)) :
    Handler.Meets o.disposition t
      (Handler.fate limits topic m (Topic.verdict topic s m.body)) := by
  have handled : ∀ {β : Type} {p : Processor β}, p.topic = topic →
      r.handlers.find? topic = some (Handler.handleWith p service limits) → p.KeepsOut →
      (∀ {call o}, p.Calls m call o → Topic.Granted topic s call →
        o = some (Topic.verdict topic s m.body)) →
      Handler.Meets o.disposition t
        (Handler.fate limits topic m (Topic.verdict topic s m.body)) := by
    rintro β p rfl hh hp hv
    obtain ⟨handling, rest, d, acked, rfl, h₁, h₂, rfl⟩ := deliver_ends hh h
    have hname : Text.isBlankText p.topic = false := by
      rcases ht with ht | ht <;> rw [ht] <;> decide
    have hquiet : lettersOf rest = [] :=
      h₂.lettersOf_eq_nil (asks_settle lenient_not_insert r fun _ => rfl)
    rw [Handler.Meets, lettersOf_append, hquiet, List.append_nil]
    refine Handler.handleWith_fate hp hname (fun call o hc hcall => hv hc ?_)
      (fun l a hl => hi l a (List.mem_append_left rest hl)) h₁
    exact hg.of_subset fun x hx => List.mem_append_left rest (hcall.subset hx)
  rcases ht with rfl | rfl
  · exact handled rfl hr.upload Topic.keepsOut_upload Topic.Upload.calls_verdict
  · exact handled rfl hr.enrichment Topic.keepsOut_enrichment Topic.Enrichment.calls_verdict

end DeadLetters
