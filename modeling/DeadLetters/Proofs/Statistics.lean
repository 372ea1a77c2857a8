import DeadLetters.Proofs.Counting
import DeadLetters.Proofs.Lifecycle

/-!
# Statistics

The statistics come from four queries.  With nothing in between they are exact in every state that
operations can reach, and the gauge of pending dead letters holds what was counted.

    collecting comes to the figures of the store                                    (run_collect)
    the figures of orderly rows are exact                                      (exact_figures)
    statistics are exact in every state that is reached                             (stats_exact)
-/

namespace DeadLetters

open Program Store

variable {env : Surroundings} {w w' w'' : World}

/-! ## Runs that only report -/

/-- From one world to another nothing but the journal has changed, which has got these samples. -/
structure World.Reported (w : World) (samples : List Sample) (w' : World) : Prop where
  store : w'.store = w.store
  samples : w'.journal.filterMap Exchange.sampled? =
    w.journal.filterMap Exchange.sampled? ++ samples

def Sample.isGauge : Sample → Bool
  | gauge _ _ _ => true
  | counter _ _ _ | timing _ _ _ => false

namespace World

theorem Reported.trans {ss ts : List Sample} (h : w.Reported ss w') (k : w'.Reported ts w'') :
    w.Reported (ss ++ ts) w'' where
  store := k.store.trans h.store
  samples := by rw [k.samples, h.samples, List.append_assoc]

theorem reported_aside (w : World) {r : Request} (hr : r.isAside = true) :
    w.Reported (Exchange.sampled? ⟨r, (w.answer env r).1⟩).toList (w.answer env r).2 where
  store := by
    cases r <;> first | rfl | simp [Request.isAside] at hr
  samples := by
    rw [journal_answer, List.filterMap_append, List.filterMap_cons, List.filterMap_nil]
    cases Exchange.sampled? ⟨r, (w.answer env r).1⟩ <;> rfl

theorem run_stopwatch (env : Surroundings) (w : World) :
    ∃ n w', w.run env stopwatch = (some n, w') ∧ w.Reported [] w' :=
  ⟨_, _, rfl, w.reported_aside (r := .stopwatch) rfl⟩

theorem run_log (env : Surroundings) (w : World) (e : Log.Event) :
    ∃ w', w.run env (log e) = (some (), w') ∧ w.Reported [] w' :=
  ⟨_, rfl, w.reported_aside (r := .log e) rfl⟩

/-- The samples that a sink makes of one. -/
def recordedBy (sink : Sink) (s : Sample) : List Sample :=
  if sink = .recorded then [s] else []

theorem mem_recordedBy {sink : Sink} {s x : Sample} (h : x ∈ recordedBy sink s) : x = s := by
  unfold recordedBy at h
  split at h
  · exact List.mem_singleton.1 h
  · cases h

theorem run_emit (env : Surroundings) (w : World) (sink : Sink) (s : Sample) :
    ∃ w', w.run env (emit sink s) = (some (), w') ∧ w.Reported (recordedBy sink s) w' := by
  cases sink
  · exact ⟨_, rfl, w.reported_aside (r := .sample s) rfl⟩
  · exact run_log env w s.event

end World

/-- Whatever only reads is answered by the store. -/
structure Reading (env : Surroundings) (s : Store) : Prop where
  accepts : ∀ n q, q.changes = false → env.store n q = .accepts
  closed : s.closed = false

theorem Reading.run_query (h : Reading env w.store) {q : Query} (hq : q.changes = false) :
    ∃ w', w.run env (query q) = (some (w.store.answer q).1, w') ∧ w.Reported [] w' := by
  refine ⟨_, World.run_query_of (h.accepts _ q hq), ?_, ?_⟩
  · simp only [World.answer, World.react, h.accepts _ q hq]
    exact w.store.answer_snd_of_not_changes hq
  · rw [World.journal_answer, List.filterMap_append, List.append_right_inj]
    rfl

theorem Reading.of_reported {ss : List Sample} (h : Reading env w.store) (hw : w.Reported ss w') :
    Reading env w'.store := ⟨h.accepts, hw.store ▸ h.closed⟩

/-! ## Collecting -/

namespace Service

/-- What the four queries count if the rows do not change between them. -/
def figures (rows : List Row) : Stats :=
  .ofCounts rows.length (rows.countP (chosen { reprocessed := some true }))
    (tally (rows.map fun x => x.letter.topic)) (tally (rows.map fun x => x.letter.errorName))

/-- What collecting comes to in a store that does not change meanwhile. -/
def collected (s : Store) : Except Failure Stats :=
  match s.letters with
  | none => .error (Store.Error.missingTable "dead_letters").failure
  | some rows => .ok (figures rows)

/-- A query that is answered, and what comes behind it. -/
theorem run_ifAnswered {β : Type} (h : Reading env w.store) {q : Store.Query}
    (hq : q.changes = false) {a : q.Answer} (ha : (w.store.answer q).1 = .ok a)
    {next : q.Answer → Program (Except Failure β)} {r : Except Failure β}
    (hn : ∀ w₁, w.Reported [] w₁ →
      ∃ w₂, w₁.run env (next a) = (some r, w₂) ∧ w₁.Reported [] w₂) :
    ∃ w₂, w.run env ((query q).bind fun answer => ifAnswered answer next) = (some r, w₂) ∧
      w.Reported [] w₂ := by
  obtain ⟨w₁, h₁, k₁⟩ := h.run_query hq
  rw [ha] at h₁
  obtain ⟨w₂, h₂, k₂⟩ := hn w₁ k₁
  exact ⟨w₂, (World.run_bind_of h₁).trans h₂, k₁.trans k₂⟩

theorem run_collect (h : Reading env w.store) :
    ∃ w', w.run env collect = (some (collected w.store), w') ∧ w.Reported [] w' := by
  cases hl : w.store.letters with
  | none =>
    obtain ⟨w₁, h₁, k₁⟩ := h.run_query (q := .count {}) rfl
    have ha : (w.store.answer (.count {})).1 =
        .error (Store.Error.missingTable "dead_letters") := by
      simp [Store.answer, h.closed, Store.perform, Store.count, Store.withRows, hl, Except.map]
    rw [ha] at h₁
    refine ⟨w₁, ?_, k₁⟩
    rw [collected, hl]
    exact World.run_bind_of h₁
  | some rows =>
    have hcount (f : Filter) : (w.store.answer (.count f)).1 = .ok (rows.countP (chosen f)) := by
      simp [Store.answer, h.closed, Store.perform, Store.count, Store.withRows, hl, Except.map]
    have hall : (w.store.answer (.count {})).1 = .ok rows.length := by
      rw [hcount, countP_chosen_all]
    have htopic : (w.store.answer .countByTopic).1 =
        .ok (tally (rows.map fun x => x.letter.topic)) := by
      simp [Store.answer, h.closed, Store.perform, Store.countBy, Store.withRows, hl, Except.map]
    have herror : (w.store.answer .countByError).1 =
        .ok (tally (rows.map fun x => x.letter.errorName)) := by
      simp [Store.answer, h.closed, Store.perform, Store.countBy, Store.withRows, hl, Except.map]
    rw [collected, hl]
    refine run_ifAnswered h rfl hall fun w₁ k₁ => ?_
    rw [← k₁.store] at h hcount htopic herror
    refine run_ifAnswered h rfl (hcount { reprocessed := some true }) fun w₂ k₂ => ?_
    rw [← k₂.store] at h htopic herror
    refine run_ifAnswered h rfl htopic fun w₃ k₃ => ?_
    rw [← k₃.store] at h herror
    refine run_ifAnswered h rfl herror fun w₄ k₄ => ?_
    exact ⟨w₄, rfl, rfl, by simp⟩

/-! ## Reporting -/

theorem run_report {α : Type} (env : Surroundings) (s : Service) (operation : String) (started : Nat)
    (result : Except Failure α) (w : World) :
    ∃ ss w', w.run env (s.report operation started result) = (some (), w') ∧ w.Reported ss w' ∧
      ∀ x ∈ ss, x.isGauge = false := by
  have hemit : ∀ (w : World) (x : Sample), x.isGauge = false → ∃ ss w',
      w.run env (emit s.sink x) = (some (), w') ∧ w.Reported ss w' ∧ ∀ y ∈ ss, y.isGauge = false := by
    intro w x hx
    obtain ⟨w', hrun, hw⟩ := World.run_emit env w s.sink x
    refine ⟨_, w', hrun, hw, fun y hy => ?_⟩
    rwa [World.mem_recordedBy hy]
  obtain ⟨n, w₁, h₁, k₁⟩ := World.run_stopwatch env w
  obtain ⟨ss, w₂, h₂, k₂, g₂⟩ :=
    hemit w₁ (.timing ("dlq." ++ operation ++ ".duration") (n - started) []) rfl
  have hlast : ∃ x : Sample, x.isGauge = false ∧
      w.run env (s.report operation started result) = w₂.run env (emit s.sink x) := by
    cases result with
    | ok _ =>
      exact ⟨_, rfl, (World.run_bind_of h₁).trans (World.run_bind_of h₂)⟩
    | error f =>
      exact ⟨_, rfl, (World.run_bind_of h₁).trans (World.run_bind_of h₂)⟩
  obtain ⟨x, hx, hrun⟩ := hlast
  obtain ⟨ts, w₃, h₃, k₃, g₃⟩ := hemit w₂ x hx
  refine ⟨ss ++ ts, w₃, hrun.trans h₃, k₁.trans (k₂.trans k₃), fun y hy => ?_⟩
  exact (List.mem_append.1 hy).elim (g₂ y) (g₃ y)

def pendingGauge (st : Stats) : Sample := .gauge "dlq.pending" st.pending.toFloat []

theorem run_reportPending (env : Surroundings) (s : Service) (st : Stats) (w : World) :
    ∃ w', w.run env (s.reportPending st) = (some (.ok st), w') ∧
      w.Reported (World.recordedBy s.sink (pendingGauge st)) w' := by
  obtain ⟨w', h, k⟩ := World.run_emit env w s.sink (pendingGauge st)
  exact ⟨w', World.run_bind_of h, k⟩

/-- What statistics make of the result of collecting: a table that is missing has no dead letters. -/
def concluded (s : Service) : Except Failure Stats → Program (Except Failure Stats)
  | .ok st => s.reportPending st
  | .error f =>
    if f.isMissingTable then
      (log (event .warn "stats" "dead_letters table does not exist yet" [])).bind fun _ =>
        s.reportPending .zero
    else
      (log (event .error "stats" "failed to collect dead letter stats"
        [("error", .plain f.message)])).bind fun _ => done (.error f)

theorem stats_eq (s : Service) : s.stats = s.observed "stats" (collect.bind s.concluded) := by
  refine congrArg (fun f => s.observed "stats" (collect.bind f)) (funext fun result => ?_)
  cases result <;> rfl

theorem run_concluded (env : Surroundings) (s : Service) (store : Store) (w : World) :
    ∃ w', w.run env (s.concluded (collected store)) = (some (.ok (figures store.rows)), w') ∧
      w.Reported (World.recordedBy s.sink (pendingGauge (figures store.rows))) w' := by
  cases hl : store.letters with
  | none =>
    obtain ⟨w₁, h₁, k₁⟩ := World.run_log env w
      (event .warn "stats" "dead_letters table does not exist yet" [])
    obtain ⟨w₂, h₂, k₂⟩ := run_reportPending env s .zero w₁
    have hmissing : (Store.Error.missingTable "dead_letters").failure.isMissingTable = true := by
      decide +kernel
    simp only [Store.rows, collected, hl, concluded, hmissing, if_true]
    exact ⟨w₂, (World.run_bind_of h₁).trans h₂, k₁.trans k₂⟩
  | some rows =>
    simp only [Store.rows, collected, hl]
    exact run_reportPending env s _ w

/-- Statistics, as they are counted in a store that does not change meanwhile. -/
theorem run_stats (s : Service) (h : Reading env w.store) :
    ∃ ss w', w.run env s.stats = (some (.ok (figures w.store.rows)), w') ∧
      w.Reported (World.recordedBy s.sink (pendingGauge (figures w.store.rows)) ++ ss) w' ∧
      ∀ x ∈ ss, x.isGauge = false := by
  obtain ⟨n, w₁, h₁, k₁⟩ := World.run_stopwatch env w
  obtain ⟨w₂, h₂, k₂⟩ := run_collect (h.of_reported k₁)
  rw [k₁.store] at h₂
  obtain ⟨w₃, h₃, k₃⟩ := run_concluded env s w.store w₂
  obtain ⟨ss, w₄, h₄, k₄, g₄⟩ := run_report env s "stats" n
    (.ok (figures w.store.rows) : Except Failure Stats) w₃
  refine ⟨ss, w₄, ?_, k₁.trans (k₂.trans (k₃.trans k₄)), g₄⟩
  rw [stats_eq]
  have hbody := (World.run_bind_of h₂).trans h₃
  exact (World.run_bind_of h₁).trans ((World.run_bind_of hbody).trans (World.run_bind_of h₄))

end Service

/-! ## The gauge -/

theorem gauges_foldl {ss : List Sample} (h : ∀ x ∈ ss, x.isGauge = false) (t : Tally) :
    (ss.foldl Tally.add t).gauges = t.gauges := by
  induction ss generalizing t with
  | nil => rfl
  | cons x ss ih =>
    rw [List.foldl_cons, ih fun y hy => h y (List.mem_cons_of_mem x hy)]
    cases x with
    | gauge => cases h _ List.mem_cons_self
    | counter | timing => rfl

/-- A gauge holds the last value that it was given. -/
theorem World.Reported.gauge {name : String} {v : Float} {tags : Tags} {ss : List Sample}
    (h : w.Reported (.gauge name v tags :: ss) w') (hs : ∀ x ∈ ss, x.isGauge = false) :
    (tallyOf w'.journal).gauge name = some v := by
  rw [Tally.gauge, tallyOf, h.samples, List.foldl_append, List.foldl_cons, gauges_foldl hs]
  exact (Dictionary.find?_insert _ _ _ _).trans (if_pos rfl)

/-! ## Exact statistics -/

/-- The statistics are those of the rows. -/
structure Stats.Exact (st : Stats) (rows : List Row) : Prop where
  total : st.total = rows.length
  reprocessed : st.reprocessed = terminalCount rows
  pending : st.pending = pendingCount rows
  /-- In particular, no more are closed than there are. -/
  balance : st.pending + st.reprocessed = st.total
  byTopic : Tallies st.byTopic (rows.map fun x => x.letter.topic)
  byError : Tallies st.byError (rows.map fun x => x.letter.errorName)

theorem exact_figures {rows : List Row} (h : Orderly rows) : (Service.figures rows).Exact rows := by
  have hall := h.pending_add_terminal
  have hclosed : (Service.figures rows).reprocessed = terminalCount rows := h.countP_chosen
  have hpending : (Service.figures rows).pending = pendingCount rows := by
    show rows.length - (Service.figures rows).reprocessed = _
    omega
  refine ⟨rfl, hclosed, hpending, ?_, tallies_tally _, tallies_tally _⟩
  rw [hclosed, hpending, hall]
  rfl

/-- In every state that operations reach from a store without dead letters, statistics that nothing
interrupts are exact. -/
theorem stats_exact {ops : List Operation} {s : Store} {t : List Event} (service : Service)
    (h : SideBySide (ops.map Operation.thread) s t w.store) (h0 : s.rows = [])
    (hread : Reading env w.store) :
    ∃ st w', w.run env service.stats = (some (.ok st), w') ∧ st.Exact w.store.rows ∧
      w'.store = w.store ∧ (service.sink = .recorded →
        (tallyOf w'.journal).gauge "dlq.pending" = some st.pending.toFloat) := by
  have ho : Orderly w.store.rows :=
    orderly_of_empty (u := []) (by rwa [List.append_nil]) h.history h0
  obtain ⟨ss, w', hrun, hw, hgauges⟩ := service.run_stats hread
  refine ⟨_, w', hrun, exact_figures ho, hw.store, fun hsink => ?_⟩
  rw [World.recordedBy, if_pos hsink] at hw
  exact hw.gauge hgauges

def Service.recording : Service := { Service.ofConfig {} with sink := .recorded }

/-- Of two dead letters that are stored, one is closed; the other one is still counted as pending. -/
theorem stats_exact_closed :
    ∃ (w : World) (st : Stats) (w' : World),
      w.run Router.calm Service.recording.stats = (some (.ok st), w') ∧ st.total = 2 ∧
        st.reprocessed = 1 ∧ st.pending = 1 ∧ st.byTopic.find? "t" = some 2 ∧
        (tallyOf w'.journal).gauge "dlq.pending" = some (1 : Nat).toFloat := by
  let ops : List Operation := [.store .recording .sample, .store .recording .sample,
    .markReprocessed .recording "1" "done"]
  obtain ⟨t, u, h, -, -⟩ := Operation.sequence_history Router.calm (.new .fresh) [] ops
  rw [List.nil_append] at h
  have hopen : (Operation.sequence Router.calm (.new .fresh) ops).store.closed = false := by
    decide +kernel
  have hterminal :
      terminalCount (Operation.sequence Router.calm (.new .fresh) ops).store.rows = 1 := by
    decide +kernel
  have hpending :
      pendingCount (Operation.sequence Router.calm (.new .fresh) ops).store.rows = 1 := by
    decide +kernel
  have hnames : (Operation.sequence Router.calm (.new .fresh) ops).store.rows.map
      (fun x => x.letter.topic) = ["t", "t"] := by
    decide +kernel
  have hread : Reading Router.calm (Operation.sequence Router.calm (.new .fresh) ops).store :=
    ⟨fun _ _ _ => rfl, hopen⟩
  obtain ⟨st, w', hrun, hexact, -, hgauge⟩ := stats_exact .recording h rfl hread
  have hone : st.pending = 1 := hexact.pending.trans hpending
  refine ⟨_, st, w', hrun, ?_, hexact.reprocessed.trans hterminal, hone, ?_, hone ▸ hgauge rfl⟩
  · rw [hexact.total, ← List.length_map (fun x : Row => x.letter.topic), hnames]
    rfl
  · rw [hexact.byTopic.count "t" (by simp [hnames]), hnames]
    rfl

end DeadLetters
