import DeadLetters.Proofs.Ledger
import DeadLetters.Proofs.Replaying

/-!
# Agreement on results

Whoever reprocesses a dead letter and gets a result gets the result of the one event that has closed
it, be it an update of its own, or read before or after.  A call fails over a payload that cannot be
read only if it has closed the dead letter itself, and whoever sees it closed publishes nothing.

    a dead letter that is read as closed has the result of its closing         (closings_of_read)
    an update that changes nothing has come too late                            (read_behind_mark)
    all calls agree                                                             (reprocess_agrees)
-/

namespace DeadLetters

open Program Store

variable {ops : List Operation} {s s' : Store} {run past rest : List Event} {id : String}

/-! ## Reading -/

/-- A dead letter that is read is there. -/
theorem row_of_get {e : Event} {l : DeadLetter} (hr : Reacts e.before e.exchange e.after)
    (hx : e.exchange = ⟨.store (.get id), some (.ok (some l))⟩) :
    ∃ x ∈ e.before.rows, x.letter = l ∧ x.letter.id = id := by
  rw [hx] at hr
  exact row_of_answer_get hr.answer_eq

/-- A dead letter that is read as closed has the result that it was closed with. -/
theorem FreshRun.closings_of_read {e : Event} {l : DeadLetter}
    (h : FreshRun ops s (past ++ e :: rest) s')
    (hx : e.exchange = ⟨.store (.get id), some (.ok (some l))⟩) (hl : l.reprocessed = true) :
    ∃ j result, l.recoveryResult = some result ∧
      closings id (past ++ e :: rest) = [(j, some result)] := by
  obtain ⟨hledger, hr, -⟩ := h.ledger_at id
  obtain ⟨x, hmem, rfl, hid⟩ := row_of_get hr hx
  rcases hledger.status with ⟨-, hpending⟩ | ⟨j, result, hone, hclosed⟩
  · rw [hpending x hmem hid] at hl
    cases hl
  · refine ⟨j, result, (hclosed x hmem hid).2, h.closings_eq ?_⟩
    rw [closings_append, hone]
    exact List.mem_append_left _ List.mem_cons_self

/-- A dead letter that is read as pending has not been closed before. -/
theorem FreshRun.closings_of_pending {e : Event} {l : DeadLetter}
    (h : FreshRun ops s (past ++ e :: rest) s')
    (hx : e.exchange = ⟨.store (.get id), some (.ok (some l))⟩) (hl : l.reprocessed = false) :
    closings id past = [] := by
  obtain ⟨hledger, hr, -⟩ := h.ledger_at id
  obtain ⟨x, hmem, rfl, hid⟩ := row_of_get hr hx
  rcases hledger.status with ⟨hnil, -⟩ | ⟨j, result, -, hclosed⟩
  · exact hnil
  · rw [(hclosed x hmem hid).1] at hl
    cases hl

/-- Once inserted and not pending, a dead letter does not become pending again. -/
theorem FreshRun.not_pending_later {mid : List Event} {m₁ m₂ : Store}
    (h : FreshRun ops s (past ++ (mid ++ rest)) s') (hm : History m₁ mid m₂)
    (hi : id ∈ insertedIds past) (hn : ∀ x ∈ m₁.rows, isPending id x = false) :
    ∀ y ∈ m₂.rows, isPending id y = false := by
  intro y hy
  rw [Bool.eq_false_iff]
  intro hp
  obtain ⟨hyid, hyr⟩ := Row.isPending_iff.1 hp
  rcases origin_of_row hm hy with ⟨x, hx, hc⟩ | ⟨e, he, l, hl, hid⟩
  · cases hxr : x.letter.reprocessed with
    | true =>
      rw [hc.closed hxr, hxr] at hyr
      cases hyr
    | false =>
      have hxp : isPending id x = true := Row.isPending_iff.2 ⟨hc.id ▸ hyid, hxr⟩
      rw [hn x hx] at hxp
      cases hxp
  · refine h.not_inserted hi ?_
    rw [insertedIds_append, ← hyid, ← hid]
    exact List.mem_append_left _ (mem_insertedIds he hl)

/-- What is read behind an update that has changed nothing is closed, if it was there before. -/
theorem FreshRun.read_behind_mark {e₁ e₂ e₃ : Event} {l l' : DeadLetter} {result : String}
    {time : Int64} {t₁ t₂ t₃ t₄ : List Event}
    (h : FreshRun ops s (t₁ ++ e₁ :: (t₂ ++ e₂ :: (t₃ ++ e₃ :: t₄))) s')
    (h₁ : e₁.exchange = ⟨.store (.get id), some (.ok (some l))⟩)
    (h₂ : e₂.exchange = ⟨.store (.mark id result time), some (.ok (0 : Nat))⟩)
    (h₃ : e₃.exchange = ⟨.store (.get id), some (.ok (some l'))⟩) : l'.reprocessed = true := by
  obtain ⟨hledger, hr₁, -⟩ := h.ledger_at id
  obtain ⟨-, -, hh₁⟩ := h.history.at
  obtain ⟨-, hr₂, hh₂⟩ := hh₁.at
  obtain ⟨hh₃, hr₃, -⟩ := hh₂.at
  obtain ⟨x₁, hx₁, -, hid₁⟩ := row_of_get hr₁ h₁
  obtain ⟨x₃, hx₃, rfl, hid₃⟩ := row_of_get hr₃ h₃
  -- the first reading shows that the id has been inserted, so no other row can come later
  have hi : id ∈ insertedIds (t₁ ++ e₁ :: (t₂ ++ [e₂])) := by
    rw [insertedIds_append]
    exact List.mem_append_left _ (hledger.inserted (.inl ⟨x₁, hx₁, hid₁⟩))
  have hn : ∀ x ∈ e₂.after.rows, isPending id x = false := by
    rw [(rows_of_mark hr₂ h₂).2]
    intro x hx
    obtain ⟨y, -, rfl⟩ := List.mem_map.1 hx
    exact Row.isPending_close id result time y
  have hsplit : t₁ ++ e₁ :: (t₂ ++ e₂ :: (t₃ ++ e₃ :: t₄)) =
      (t₁ ++ e₁ :: (t₂ ++ [e₂])) ++ (t₃ ++ e₃ :: t₄) := by simp
  rw [hsplit] at h
  have hlater := h.not_pending_later hh₃ hi hn x₃ hx₃
  simpa [isPending, hasId, hid₃] using hlater

/-! ## What a call has done -/

/-- A call that closes the dead letter closes it with the result that counts, and one that does not
gets the result of whoever has closed it. -/
theorem FreshRun.closings_of_closing {i : Nat} {e₁ : Event} {l : DeadLetter} {result str : String}
    {u : List Exchange} {b : Bool} (h : FreshRun ops s (past ++ e₁ :: rest) s')
    (h₁ : e₁.exchange = ⟨.store (.get id), some (.ok (some l))⟩)
    (hu : only Request.isQuery (own i rest) = u)
    (hc : Service.Closing id result u (.ok (str, b))) :
    (∃ j, closings id (past ++ e₁ :: rest) = [(j, some str)]) ∧
      (b = true → closings id (past ++ e₁ :: rest) = [(i, some str)]) := by
  cases hc with
  | closed time n hn =>
    obtain ⟨t₂, e₂, t₃, rfl, rfl, h₂, -⟩ := exists_of_only_own_eq hu
    have hsplit : past ++ e₁ :: (t₂ ++ e₂ :: t₃) = (past ++ e₁ :: t₂) ++ e₂ :: t₃ := by simp
    have hone : closings id (past ++ e₁ :: (t₂ ++ e₂ :: t₃)) = [(e₂.thread, some result)] := by
      rw [hsplit] at h ⊢
      obtain ⟨-, hr, hledger⟩ := h.ledger_at id
      refine h.closings_eq (List.mem_filterMap.2 ⟨e₂, by simp, ?_⟩)
      exact closing_of_mark hr hledger.orderly h₂ hn
    exact ⟨⟨_, hone⟩, fun _ => hone⟩
  | beaten time hf =>
    cases hf with
    | found l' =>
      obtain ⟨t₂, e₂, u₂, rfl, -, h₂, hu₂⟩ := exists_of_only_own_eq hu
      obtain ⟨t₃, e₃, t₄, rfl, -, h₃, -⟩ := exists_of_only_own_eq hu₂
      have hl := h.read_behind_mark h₁ h₂ h₃
      have hsplit : past ++ e₁ :: (t₂ ++ e₂ :: (t₃ ++ e₃ :: t₄)) =
          (past ++ e₁ :: (t₂ ++ e₂ :: t₃)) ++ e₃ :: t₄ := by simp
      rw [hsplit] at h ⊢
      obtain ⟨j, first, hfirst, hone⟩ := h.closings_of_read h₃ hl
      refine ⟨⟨j, ?_⟩, nofun⟩
      rw [hone, hfirst]
      rfl

variable {service : Service} {i : Nat}

/-- A call with a result has the result of the event that has closed the dead letter. -/
theorem FreshRun.closings_of_result {str : String} (h : FreshRun ops s run s')
    (hg : (service.reprocess id).Goes (own i run) (done (.ok str))) :
    ∃ j, closings id run = [(j, some str)] := by
  have hends := Service.reprocess_ends hg
  generalize hu : only Request.isQuery (own i run) = u at hends
  cases hends with
  | closed l hl =>
    obtain ⟨past, e, rest, rfl, -, hx, -⟩ := exists_of_only_own_eq hu
    obtain ⟨j, result, hresult, hone⟩ := h.closings_of_read hx hl
    refine ⟨j, ?_⟩
    rw [hone, hresult]
    rfl
  | replayed l hl hc hr =>
    obtain ⟨past, e, rest, rfl, -, hx, hrest⟩ := exists_of_only_own_eq hu
    cases hr with
    | stored str b => exact (h.closings_of_closing hx hrest hc).1

/-- A call that fails over the payload has closed the dead letter itself. -/
theorem FreshRun.closings_of_refusal {detail : String} (h : FreshRun ops s run s')
    (hg : (service.reprocess id).Goes (own i run) (done (.error (.validation detail)))) :
    closings id run = [(i, some detail)] := by
  have hends := Service.reprocess_ends hg
  generalize hu : only Request.isQuery (own i run) = u at hends
  generalize hf : Except.error (Failure.validation detail) = r at hends
  cases hends with
  | failed e => cases hf
  | missing => cases hf
  | closed l hl => cases hf
  | @replayed l hl result u c r hc hr =>
    obtain ⟨past, e, rest, rfl, -, hx, hrest⟩ := exists_of_only_own_eq hu
    cases hr with
    | failed f =>
      cases hf
      exact absurd rfl hc.kind_ne
    | stored => cases hf
    | refused =>
      cases hf
      exact (h.closings_of_closing hx hrest hc).2 rfl

/-- A call that begins behind the closing publishes nothing. -/
theorem FreshRun.late_sends (h : FreshRun ops s (past ++ rest) s') {q : Program _}
    (hg : (service.reprocess id).Goes (own i (past ++ rest)) q) (hc : closings id past ≠ [])
    (hi : own i past = []) : only Request.isSend (own i (past ++ rest)) = [] := by
  rcases Service.reprocess_sends hg with hnone | ⟨t₁, l, t₂, ht, hl, -, -⟩
  · exact hnone
  · rw [own_append, hi, List.nil_append] at ht
    obtain ⟨u, e, v, rfl, -, hx, -, -⟩ := exists_of_own_eq ht
    rw [← List.append_assoc] at h
    have hnil := h.closings_of_pending hx hl
    rw [closings_append, List.append_eq_nil_iff] at hnil
    exact absurd hnil.1 hc

/-! ## Agreement -/

/-- What all calls agree on that concern one dead letter. -/
structure Agreement (id : String) (ops : List Operation) (run : List Event) : Prop where
  once : (closings id run).length ≤ 1
  /-- What closes it is an update, which leaves its result. -/
  update : ∀ e ∈ run, ∀ j r, e.closing? id = some (j, r) →
    e.thread = j ∧ ∃ result time, r = some result ∧ e.request = .store (.mark id result time)
  result : ∀ (i : Nat) (service : Service) (str : String),
    ops[i]? = some (.reprocess service id) →
      (service.reprocess id).Goes (own i run) (done (.ok str)) →
        ∃ j, closings id run = [(j, some str)]
  /-- The call that fails over the payload has closed it itself. -/
  refusal : ∀ (i : Nat) (service : Service) (detail : String),
    ops[i]? = some (.reprocess service id) →
      (service.reprocess id).Goes (own i run) (done (.error (.validation detail))) →
        closings id run = [(i, some detail)]
  refusedOnce : ∀ (i j : Nat) (service service' : Service) (detail detail' : String),
    ops[i]? = some (.reprocess service id) → ops[j]? = some (.reprocess service' id) →
      (service.reprocess id).Goes (own i run) (done (.error (.validation detail))) →
        (service'.reprocess id).Goes (own j run) (done (.error (.validation detail'))) → i = j
  sends : ∀ (i : Nat) (service : Service), ops[i]? = some (.reprocess service id) →
    (only Request.isSend (own i run)).length ≤ 1
  /-- Before a call publishes, it has read the dead letter as pending. -/
  reads : ∀ (i : Nat) (service : Service) (t : List Exchange) (x : Exchange) (u : List Exchange),
    ops[i]? = some (.reprocess service id) → own i run = t ++ x :: u → x.request.isSend = true →
      ∃ l, l.reprocessed = false ∧ ⟨.store (.get id), some (.ok (some l))⟩ ∈ t
  /-- A call that begins behind the closing publishes nothing. -/
  late : ∀ (i : Nat) (service : Service) (past rest : List Event),
    ops[i]? = some (.reprocess service id) → run = past ++ rest → closings id past ≠ [] →
      own i past = [] → only Request.isSend (own i run) = []
  /-- Calls that record a result or purge publish nothing. -/
  others : ∀ (i : Nat) (o : Operation), ops[i]? = some o →
    (∃ service id' result, o = .markReprocessed service id' result) ∨
      (∃ service f, o = .purge service f) → only Request.isSend (own i run) = []

theorem reprocess_agrees (h : FreshRun ops s run s') (id : String) : Agreement id ops run := by
  have hgoes : ∀ {i : Nat} {o : Operation}, ops[i]? = some o →
      ∃ q, o.thread.program.Goes (own i run) q := by
    intro i o ho
    exact h.goes i o.thread (by simp [ho])
  have hsends : ∀ {i : Nat} {service : Service}, ops[i]? = some (.reprocess service id) →
      ∃ q : Program (Except Failure String), (service.reprocess id).Goes (own i run) q :=
    fun ho => hgoes ho
  refine ⟨h.closings_length_le id, ?_, ?_, ?_, ?_, ?_, ?_, ?_, ?_⟩
  · intro e he j r hc
    obtain ⟨past, rest, rfl⟩ := List.append_of_mem he
    obtain ⟨hb, hr, ha⟩ := h.ledger_at id
    exact request_of_closing hr hb.orderly ha.orderly hc
  · exact fun i service str _ hg => h.closings_of_result hg
  · exact fun i service detail _ hg => h.closings_of_refusal hg
  · intro i j service service' detail detail' _ _ hi hj
    have hone := (h.closings_of_refusal hi).symm.trans (h.closings_of_refusal hj)
    simp only [List.cons.injEq, Prod.mk.injEq] at hone
    exact hone.1.1
  · intro i service ho
    obtain ⟨q, hq⟩ := hsends ho
    rcases Service.reprocess_sends hq with hnone | ⟨t₁, l, t₂, ht, -, h₁, h₂⟩
    · simp [hnone]
    · rw [ht, only_append, h₁, List.nil_append, only_cons]
      exact h₂
  · intro i service t x u ho ht hx
    obtain ⟨q, hq⟩ := hsends ho
    rcases Service.reprocess_sends hq with hnone | ⟨t₁, l, t₂, ht', hl, h₁, -⟩
    · have hmem : x ∈ only Request.isSend (own i run) := mem_only.2 ⟨by simp [ht], hx⟩
      rw [hnone] at hmem
      cases hmem
    · exact ⟨l, hl, mem_of_only_eq_nil (ht'.symm.trans ht) h₁ rfl hx⟩
  · rintro i service past rest ho rfl hc hi
    obtain ⟨q, hq⟩ := hsends ho
    exact h.late_sends hq hc hi
  · rintro i o ho hother
    obtain ⟨q, hq⟩ := hgoes ho
    refine hq.only_eq_nil ?_
    rcases hother with ⟨service, id', result, rfl⟩ | ⟨service, f, rfl⟩
    · exact Service.asks_markReprocessed lenient_not_send service (fun _ => rfl) rfl
    · exact Service.asks_purge lenient_not_send service rfl rfl

def Service.replaying : Service :=
  { Service.ofConfig {} with
    binds := some fun _ => true
    replay := Replay.none.allow "t" Topic.Script.schema }

/-- One call that stores a script, and two that reprocess it. -/
def Service.rivals : List (Program (Except Failure String)) :=
  [replaying.store { Draft.sample with payload := .text "\x7b\x7d" }, replaying.reprocess "1",
    replaying.reprocess "1"]

/-- Two calls both read the dead letter as pending and publish it; the first update counts. -/
theorem reprocess_agrees_beaten :
    ∃ run s', FreshRun [.store .replaying { Draft.sample with payload := .text "\x7b\x7d" },
        .reprocess .replaying "1", .reprocess .replaying "1"] .fresh run s' ∧
      (only Request.isSend (run.map Event.exchange)).length = 2 ∧
      (Service.replaying.reprocess "1").Goes (own 1 run) (done (.ok "Replayed to topic t")) ∧
      (Service.replaying.reprocess "1").Goes (own 2 run) (done (.ok "Replayed to topic t")) ∧
      ∃ j, closings "1" run = [(j, some "Replayed to topic t")] := by
  let schedule := [0, 1, 2, 1, 2, 1, 2, 1, 2, 2, 0]
  obtain ⟨run, hside, hjournal, hgoes⟩ :=
    @World.interleave_history _ Router.calm schedule Service.rivals (.new .fresh)
  have hids : (Program.interleave (World.answer Router.calm) schedule Service.rivals
      (.new .fresh)).2.journal.filterMap Exchange.drawn? = ["1"] := by
    decide +kernel
  have hsent : (only Request.isSend (Program.interleave (World.answer Router.calm) schedule
      Service.rivals (.new .fresh)).2.journal).length = 2 := by
    decide +kernel
  have hresults : ∀ i, i = 1 ∨ i = 2 → (Program.interleave (World.answer Router.calm) schedule
      Service.rivals (.new .fresh)).1[i]?.bind result? = some (.ok "Replayed to topic t") := by
    rintro i (rfl | rfl) <;> decide +kernel
  rw [show (World.new .fresh).journal = [] from rfl, List.nil_append] at hjournal
  rw [hjournal] at hids hsent
  generalize (Program.interleave (World.answer Router.calm) schedule Service.rivals
    (.new .fresh)).2.store = s' at hside
  have hrun : FreshRun [.store .replaying { Draft.sample with payload := .text "\x7b\x7d" },
      .reprocess .replaying "1", .reprocess .replaying "1"] .fresh run s' := by
    refine ⟨hside, rfl, ?_⟩
    rw [List.filterMap_map] at hids
    show (run.filterMap (Exchange.drawn? ∘ Event.exchange)).Nodup
    rw [hids]
    exact List.nodup_singleton "1"
  have hdone : ∀ i, i = 1 ∨ i = 2 → Service.rivals[i]? = some (Service.replaying.reprocess "1") →
      (Service.replaying.reprocess "1").Goes (own i run) (done (.ok "Replayed to topic t")) := by
    intro i hi hp
    obtain ⟨q, hq, hgoes⟩ := hgoes i _ hp
    have hr := hresults i hi
    rw [hq, Option.bind_some, result?_eq_some_iff] at hr
    rwa [hr] at hgoes
  refine ⟨run, s', hrun, hsent, hdone 1 (.inl rfl) rfl, hdone 2 (.inr rfl) rfl, ?_⟩
  exact (reprocess_agrees hrun "1").result 2 .replaying _ rfl (hdone 2 (.inr rfl) rfl)

end DeadLetters
