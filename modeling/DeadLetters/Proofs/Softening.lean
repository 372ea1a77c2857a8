import DeadLetters.Proofs.Failing

/-!
# Softened failures

A query that fails ends its call.  Listing, statistics and the count before a purge take the error
of a missing table for an empty table.  Any other failure is returned as it is, and a change that
fails is never taken for anything else.

What decides is the text of the failure, not the error that it was made of.

    a failed query decides what its call ends with                          (failsAs_program)
    the text names a missing table  exactly when  the engine misses a table, or an error that is
      not from the engine says so                                     (isMissingTable_failure)
    of the errors that the store raises by itself the text tells the truth  (recognized_of_answer)
-/

namespace DeadLetters

open Store

namespace Program

variable {α β : Type}

/-- Whatever it is answered, the program ends with the result, and it asks nothing of the store. -/
def ComesTo (b : α) : Program α → Prop
  | done a => a = b
  | stuck => False
  | ask r next => r.isQuery = false ∧ ∀ a, (next a).ComesTo b

/-- A query that fails is the last one, and decides the result. -/
def FailsAs (g : Query → Store.Error → α) : Program α → Prop
  | done _ => True
  | stuck => True
  | ask r next => ∀ a : r.Answer, (next a).FailsAs g ∧
      ∀ q e, (⟨r, a⟩ : Exchange) = ⟨.store q, some (.error e)⟩ → (next a).ComesTo (g q e)

variable {b : α} {g : Query → Store.Error → α} {p : Program α} {t : List Exchange} {o : Option α}

/-! ## Paths behind a failure -/

theorem ComesTo.ended (hp : p.ComesTo b) (h : p.Goes t (await o)) :
    o = some b ∧ only Request.isQuery t = [] := by
  induction p generalizing t with
  | done a =>
    obtain ⟨rfl, ho⟩ := goes_done_iff.1 h
    rw [← await_some] at ho
    exact ⟨by rw [await_injective ho, show a = b from hp], rfl⟩
  | stuck => exact hp.elim
  | ask r next ih =>
    rcases goes_ask_iff.1 h with ⟨-, hr⟩ | ⟨a, u, rfl, hu⟩
    · cases o <;> cases hr
    · obtain ⟨ho, hquiet⟩ := ih a (hp.2 a) hu
      exact ⟨ho, by rw [only_cons, hp.1, hquiet, if_neg Bool.false_ne_true]⟩

theorem FailsAs.ended (hp : p.FailsAs g) {q : Query} {e : Store.Error} (h : p.Goes t (await o))
    (hx : ⟨.store q, some (.error e)⟩ ∈ t) : o = some (g q e) := by
  induction p generalizing t with
  | done a =>
    obtain ⟨rfl, -⟩ := goes_done_iff.1 h
    cases hx
  | stuck =>
    obtain ⟨rfl, -⟩ := goes_stuck_iff.1 h
    cases hx
  | ask r next ih =>
    rcases goes_ask_iff.1 h with ⟨rfl, -⟩ | ⟨a, u, rfl, hu⟩
    · cases hx
    · rcases List.mem_cons.1 hx with hfailed | hx
      · exact (((hp a).2 q e hfailed.symm).ended hu).1
      · exact ih a (hp a).1 hu hx

/-! ## Programs by their parts -/

theorem ComesTo.bind {p : Program β} {a : β} {f : β → Program α} (hp : p.ComesTo a)
    (hf : (f a).ComesTo b) : (p.bind f).ComesTo b := by
  induction p with
  | done c =>
    obtain rfl : c = a := hp
    exact hf
  | stuck => exact hp.elim
  | ask r next ih => exact ⟨hp.1, fun c => ih c (hp.2 c)⟩

/-- What only says something, and then ends. -/
theorem comesTo_after {p : Program β} (hp : p.Asks fun r => r.isQuery = false) (he : p.Ends)
    {f : β → Program α} (hf : ∀ a, (f a).ComesTo b) : (p.bind f).ComesTo b := by
  induction p with
  | done a => exact hf a
  | stuck => exact he.elim
  | ask r next ih => exact ⟨hp.1, fun a => ih a (hp.2 a) (he a)⟩

theorem comesTo_logged (e : Log.Event) (b : α) : ((log e).bind fun _ => done b).ComesTo b :=
  comesTo_after (lenient_not_query.log e) (ends_log e) fun _ => rfl

/-- Without queries none can fail. -/
theorem failsAs_of_quiet (hp : p.Asks fun r => r.isQuery = false) : p.FailsAs g := by
  induction p with
  | done a => trivial
  | stuck => trivial
  | ask r next ih =>
    refine fun a => ⟨ih a (hp.2 a), fun q e hx => ?_⟩
    obtain rfl : r = .store q := congrArg Sigma.fst hx
    exact Bool.noConfusion hp.1

theorem FailsAs.bind {p : Program β} {f : β → Program α} {g' : Query → Store.Error → β}
    (hp : p.FailsAs g') (he : ∀ q e, (f (g' q e)).ComesTo (g q e))
    (hf : ∀ a, (f a).FailsAs g) : (p.bind f).FailsAs g := by
  induction p with
  | done a => exact hf a
  | stuck => trivial
  | ask r next ih => exact fun a => ⟨ih a (hp a).1, fun q e hx => ((hp a).2 q e hx).bind (he q e)⟩

/-- What comes before the first query. -/
theorem failsAs_after {p : Program β} {f : β → Program α}
    (hp : p.Asks fun r => r.isQuery = false) (hf : ∀ a, (f a).FailsAs g) :
    (p.bind f).FailsAs g := by
  induction p with
  | done a => exact hf a
  | stuck => trivial
  | ask r next ih =>
    refine fun a => ⟨ih a (hp.2 a), fun q e hx => ?_⟩
    obtain rfl : r = .store q := congrArg Sigma.fst hx
    exact Bool.noConfusion hp.1

theorem ComesTo.failsAs (hp : p.ComesTo b) : p.FailsAs g := by
  refine failsAs_of_quiet ?_
  induction p with
  | done a => trivial
  | stuck => trivial
  | ask r next ih => exact ⟨hp.1, fun a => ih a (hp.2 a)⟩

theorem failsAs_query {q : Query} {f : Except Store.Error q.Answer → Program α}
    (he : ∀ e, (f (.error e)).ComesTo (g q e)) (hf : ∀ a, (f (.ok a)).FailsAs g) :
    ((query q).bind f).FailsAs g := by
  intro a
  rcases a with _ | e | a
  · refine ⟨trivial, fun q' e' hx => ?_⟩
    cases hx
  · refine ⟨(he e).failsAs, fun q' e' hx => ?_⟩
    cases hx
    exact he e
  · refine ⟨hf a, fun q' e' hx => ?_⟩
    cases hx

/-- Of a program that only reads it does not matter what a change would come to. -/
theorem FailsAs.of_reads {g' : Query → Store.Error → α} (hp : p.FailsAs g)
    (h : p.Asks fun r => ∀ q, r = .store q → q.changes = false)
    (hg : ∀ q e, q.changes = false → g q e = g' q e) : p.FailsAs g' := by
  induction p with
  | done a => trivial
  | stuck => trivial
  | ask r next ih =>
    refine fun a => ⟨ih a (hp a).1 (h.2 a), fun q e hx => ?_⟩
    rw [← hg q e (h.1 q (congrArg Sigma.fst hx))]
    exact (hp a).2 q e hx

end Program

/-! ## Calls -/

namespace Service

open Program

variable {α β : Type} {g : Query → Store.Error → Except Failure α}

theorem failsAs_observed {s : Service} {operation : String}
    {body : Program (Except Failure α)} (h : body.FailsAs g) :
    (s.observed operation body).FailsAs g := by
  have quiet : ∀ started (r : Except Failure α),
      (s.report operation started r).Asks fun r => r.isQuery = false :=
    asks_report lenient_not_query s operation
  refine failsAs_after lenient_not_query.stopwatch fun started => ?_
  refine h.bind (fun q e => ?_) fun r => ?_
  · exact comesTo_after (quiet started _) (ends_report s operation started _) fun _ => rfl
  · exact failsAs_of_quiet ((quiet started r).bind fun _ => asks_done _)

theorem failsAs_orFail {q : Query} {complain : Store.Error → Log.Event}
    {next : q.Answer → Program (Except Failure α)} (hg : ∀ e, g q e = .error e.failure)
    (hn : ∀ a, (next a).FailsAs g) :
    ((query q).bind fun answer => orFail answer complain next).FailsAs g :=
  failsAs_query (fun e => hg e ▸ comesTo_logged (complain e) _) hn

/-- The failure of a query is that of the operation. -/
def failed (_ : Query) (e : Store.Error) : Except Failure α := .error e.failure

theorem failsAs_insert (d : Draft) : (insert d).FailsAs failed := by
  have logged : ∀ (e : Log.Event) (id : String),
      ((log e).bind fun _ => done (.ok id : Except Failure String)).FailsAs failed := fun e id =>
    failsAs_of_quiet ((lenient_not_query.log e).bind fun _ => asks_done _)
  refine failsAs_after lenient_not_query.freshId fun id => ?_
  cases d.failedAt with
  | none =>
    refine failsAs_after lenient_not_query.clock fun now => ?_
    exact failsAs_orFail (fun _ => rfl) fun _ => logged _ _
  | some now => exact failsAs_orFail (fun _ => rfl) fun _ => logged _ _

theorem failsAs_store (s : Service) (d : Draft) : (s.store d).FailsAs failed := by
  refine failsAs_observed ?_
  split
  · exact failsAs_insert d
  · exact failsAs_of_quiet ((lenient_not_query.log _).bind fun _ => asks_done _)

theorem failsAs_giveUp (s : Service) (payload : Payload) (f : Failure) (o : Origin) :
    (s.giveUp payload f o).FailsAs failed := by
  refine failsAs_after lenient_not_query.clock fun now => ?_
  refine failsAs_after (asks_notify lenient_not_query s _ rfl) fun _ => ?_
  exact failsAs_store s _

theorem failsAs_firstResult (id : String) : (firstResult id).FailsAs failed := by
  refine failsAs_orFail (fun _ => rfl) fun found => failsAs_of_quiet ?_
  cases found <;> exact (lenient_not_query.log _).bind fun _ => asks_done _

theorem failsAs_close (id result : String) : (close id result).FailsAs failed := by
  refine failsAs_after lenient_not_query.clock fun now => ?_
  refine failsAs_orFail (fun _ => rfl) fun (changed : Nat) => ?_
  show (if 0 < changed then done (.ok (result, true)) else firstResult id).FailsAs failed
  split
  · trivial
  · exact failsAs_firstResult id

theorem failsAs_markReprocessed (s : Service) (id result : String) :
    (s.markReprocessed id result).FailsAs failed :=
  failsAs_observed ((failsAs_close id result).bind (fun _ _ => rfl) fun _ => trivial)

theorem failsAs_closeUnreadable (id result : String) :
    (closeUnreadable id result).FailsAs failed := by
  refine (failsAs_close id result).bind (fun _ _ => rfl) fun c => ?_
  rcases c with f | ⟨stored, _ | _⟩ <;> trivial

theorem failsAs_replayAndClose (s : Service) (id : String) (l : DeadLetter) :
    (s.replayAndClose id l).FailsAs failed := by
  unfold replayAndClose
  split
  · exact failsAs_after (lenient_not_query.log _) fun _ => failsAs_closeUnreadable id _
  · refine failsAs_after (asks_attempt lenient_not_query s l _ fun _ _ => rfl) fun result => ?_
    refine (failsAs_close id result).bind (fun _ _ => rfl) fun c => ?_
    rcases c with f | ⟨stored, closed⟩
    · trivial
    · exact failsAs_of_quiet ((lenient_not_query.log _).bind fun _ => asks_done _)

theorem failsAs_reprocess (s : Service) (id : String) : (s.reprocess id).FailsAs failed := by
  refine failsAs_observed (failsAs_orFail (fun _ => rfl) fun found => ?_)
  cases found with
  | none => exact failsAs_of_quiet ((lenient_not_query.log _).bind fun _ => asks_done _)
  | some l =>
    show (if l.reprocessed then (log (event .info "reprocess"
        "dead letter already reprocessed" [("id", .quoted id)])).bind fun _ =>
          done (.ok (l.recoveryResult.getD ""))
        else s.replayAndClose id l).FailsAs failed
    split
    · exact failsAs_of_quiet ((lenient_not_query.log _).bind fun _ => asks_done _)
    · exact failsAs_replayAndClose s id l

/-- The failure of a missing table is an answer. -/
def softened (a : α) (_ : Query) (e : Store.Error) : Except Failure α :=
  if e.failure.isMissingTable then .ok a else .error e.failure

theorem comesTo_softened (a : α) (q : Query) (e : Store.Error) (warning complaint : Log.Event) :
    (if e.failure.isMissingTable then (log warning).bind fun _ => done (.ok a)
      else (log complaint).bind fun _ => done (.error e.failure)).ComesTo (softened a q e) := by
  unfold softened
  split <;> exact comesTo_logged _ _

theorem failsAs_list (s : Service) (f : Filter) : (s.list f).FailsAs (softened []) :=
  failsAs_observed (failsAs_query (fun _ => comesTo_softened _ _ _ _ _) fun _ => trivial)

theorem failsAs_ifAnswered {q : Query} {next : q.Answer → Program (Except Failure α)}
    (hn : ∀ a, (next a).FailsAs failed) :
    ((query q).bind fun answer => ifAnswered answer next).FailsAs failed :=
  failsAs_query (fun _ => rfl) hn

theorem failsAs_collect : collect.FailsAs failed :=
  failsAs_ifAnswered fun _ => failsAs_ifAnswered fun _ => failsAs_ifAnswered fun _ =>
    failsAs_ifAnswered fun _ => trivial

theorem comesTo_concluded (s : Service) (q : Query) (e : Store.Error) :
    (s.concluded (failed q e)).ComesTo (softened .zero q e) := by
  simp only [softened, failed, concluded]
  split
  · refine comesTo_after (lenient_not_query.log _) (ends_log _) fun _ => ?_
    exact comesTo_after (lenient_not_query.emit _ _) (ends_emit _ _) fun _ => rfl
  · exact comesTo_logged _ _

theorem asks_concluded (s : Service) (r : Except Failure Stats) :
    (s.concluded r).Asks fun r => r.isQuery = false := by
  unfold concluded
  split
  · exact asks_reportPending lenient_not_query s _
  · split
    · exact (lenient_not_query.log _).bind fun _ => asks_reportPending lenient_not_query s _
    · exact (lenient_not_query.log _).bind fun _ => asks_done _

theorem failsAs_stats (s : Service) : s.stats.FailsAs (softened .zero) := by
  rw [stats_eq]
  refine failsAs_observed (failsAs_collect.bind (comesTo_concluded s) fun r => ?_)
  exact failsAs_of_quiet (asks_concluded s r)

namespace Call

/-- What a call answers where the table of dead letters is missing, if it answers then. -/
def nothing? : (c : Call) → Option c.Result
  | list _ => some ([] : List DeadLetter)
  | stats => some Stats.zero
  | purge _ => some (0 : Nat)
  | store _ | giveUp _ _ _ | markReprocessed _ _ | reprocess _ => none

/-- What a call ends with when a query fails.  Only a failure to read can be an answer. -/
def ending (c : Call) (q : Query) (e : Store.Error) : Except Failure c.Result :=
  match c.nothing? with
  | none => .error e.failure
  | some a => if q.changes = false ∧ e.failure.isMissingTable = true then .ok a else .error e.failure

theorem ending_of_changes {c : Call} {q : Query} (hq : q.changes = true) (e : Store.Error) :
    c.ending q e = .error e.failure := by
  unfold ending
  split
  · rfl
  · simp [hq]

theorem softened_eq_ending {c : Call} {a : c.Result} (hc : c.nothing? = some a) (q : Query)
    (e : Store.Error) (hq : q.changes = false) : softened a q e = c.ending q e := by
  simp [softened, ending, hc, hq]

/-- A failed query decides what its call ends with. -/
theorem failsAs_program (s : Service) (c : Call) : (c.program s).FailsAs c.ending := by
  have reads : ∀ q : Query, q.changes = false →
      ∀ q', Request.store q = .store q' → q'.changes = false := by
    rintro q hq q' ⟨⟩
    exact hq
  cases c with
  | store d => exact failsAs_store s d
  | giveUp payload f o => exact failsAs_giveUp s payload f o
  | markReprocessed id result => exact failsAs_markReprocessed s id result
  | reprocess id => exact failsAs_reprocess s id
  | purge f =>
    refine failsAs_observed (failsAs_query (fun e => ?_) fun n => ?_)
    · rw [← softened_eq_ending (c := purge f) rfl (.count f) e rfl]
      exact comesTo_softened _ _ e _ _
    · refine failsAs_after (asks_warnOfPurge lenient_not_query s f n) fun _ => ?_
      refine failsAs_orFail (ending_of_changes rfl) fun _ => failsAs_of_quiet ?_
      exact (lenient_not_query.log _).bind fun _ => asks_done _
  | list f =>
    exact (failsAs_list s f).of_reads (asks_list lenient_reads s (reads _ rfl))
      (softened_eq_ending (c := list f) rfl)
  | stats =>
    exact (failsAs_stats s).of_reads (asks_stats lenient_reads s (fun _ => reads _ rfl)
      (reads _ rfl) (reads _ rfl)) (softened_eq_ending (c := stats) rfl)

end Call

end Service

/-! ## Recognizing a missing table -/

namespace Text

variable {c : Char} {needle : List Char}

theorem isPrefixOf_append_cons (hc : c ∉ needle) (l cs : List Char) :
    needle.isPrefixOf (l ++ c :: cs) = needle.isPrefixOf l := by
  induction l generalizing needle with
  | nil =>
    cases needle with
    | nil => rfl
    | cons d needle =>
      have hd : d ≠ c := fun h => hc (h ▸ List.mem_cons_self)
      simp [List.isPrefixOf, hd]
  | cons b l ih =>
    cases needle with
    | nil => rfl
    | cons d needle =>
      rw [List.cons_append, List.isPrefixOf, List.isPrefixOf,
        ih fun h => hc (List.mem_cons_of_mem d h)]

/-- A text does not reach across a character that it does not contain. -/
theorem occursIn_append_cons (hc : c ∉ needle) (l cs : List Char) :
    occursIn needle (l ++ c :: cs) = (occursIn needle l || occursIn needle cs) := by
  induction l with
  | nil =>
    have hp := isPrefixOf_append_cons hc [] cs
    rw [List.nil_append] at hp ⊢
    show (needle.isPrefixOf (c :: cs) || occursIn needle cs) = _
    rw [hp, occursIn]
    cases needle <;> rfl
  | cons b l ih =>
    have hp := isPrefixOf_append_cons hc (b :: l) cs
    rw [List.cons_append] at hp ⊢
    rw [occursIn, hp, ih, occursIn, Bool.or_assoc]

theorem not_occursIn_of_not_mem {cs : List Char} (hc : c ∈ needle) (h : c ∉ cs) :
    occursIn needle cs = false := by
  rw [Bool.eq_false_iff]
  intro ho
  obtain ⟨before, after, rfl⟩ := (occursIn_iff needle cs).1 ho
  exact h (List.mem_append_left _ (List.mem_append_right _ hc))

end Text

namespace Store.Error

/-- Whether the engine has answered, and not the way to it. -/
def fromEngine : Error → Bool
  | database _ _ => true
  | _ => false

/-- The code before a message of the engine does not look like a missing table. -/
theorem contains_coded (code : Nat) (m : String) :
    Text.contains (database code m).message Failure.missingTablePhrase =
      Text.contains m Failure.missingTablePhrase := by
  have hclosing : ") ".toList = [')', ' '] := by simp
  have hmessage : (database code m).message =
      "error returned from database: " ++ ("(code: " ++ toString code ++ ") " ++ m) := rfl
  have hchars : (database code m).message.toList =
      ("error returned from database: ".toList ++ ("(code: ".toList ++ Nat.toDigits 10 code)) ++
        ')' :: ' ' :: m.toList := by
    rw [hmessage]
    simp only [String.toList_append, Nat.toString_eq_repr, Nat.toList_repr, hclosing,
      List.append_assoc, List.cons_append, List.nil_append]
  have hheading : Text.occursIn Failure.missingTablePhrase.toList
      ("error returned from database: ".toList ++ ("(code: ".toList ++ Nat.toDigits 10 code)) =
        false := by
    have hneedle : 'h' ∈ Failure.missingTablePhrase.toList := by simp [Failure.missingTablePhrase]
    refine Text.not_occursIn_of_not_mem hneedle fun h => ?_
    rcases List.mem_append.1 h with h | h
    · simp at h
    · rcases List.mem_append.1 h with h | h
      · simp at h
      · cases Nat.isDigit_of_mem_toDigits (by decide) (by decide) h
  have hbracket : ')' ∉ Failure.missingTablePhrase.toList := by simp [Failure.missingTablePhrase]
  rw [Text.contains, hchars, Text.occursIn_append_cons hbracket, hheading]
  simp [Text.contains, Text.occursIn, Failure.missingTablePhrase, List.isPrefixOf]

/-- The text of a failure names a missing table if the engine misses one, and also if another error
happens to say so. -/
theorem isMissingTable_failure (e : Error) : e.failure.isMissingTable =
    (e.isMissingTable || !e.fromEngine && Text.contains e.message Failure.missingTablePhrase) := by
  have hkind : e.failure.isMissingTable = Text.contains e.message Failure.missingTablePhrase := by
    simp [Failure.isMissingTable, failure, Failure.storage]
  rw [hkind]
  cases e with
  | database code m => simp [isMissingTable, fromEngine, contains_coded]
  | _ => rfl

end Store.Error

/-! The errors that the store raises by itself. -/

namespace Store

variable {α β : Type} {s : Store} {e : Error}

/-- The error is one of the engine, or one that does not mention a table. -/
def Error.Plain (e : Error) : Prop := e.fromEngine = true ∨ e = .closed ∨ e = .retryCountTooLarge

theorem Error.Plain.recognized (h : e.Plain) : e.failure.isMissingTable = e.isMissingTable := by
  rw [isMissingTable_failure]
  rcases h with h | rfl | rfl
  · rw [h, Bool.not_true, Bool.false_and, Bool.or_false]
  · decide +kernel
  · decide +kernel

theorem plain_of_withRows {f : List Row → Except Error α} (h : s.withRows f = .error e)
    (hf : ∀ rows, f rows = .error e → e.Plain) : e.Plain := by
  unfold withRows at h
  split at h
  · exact hf _ h
  · cases h
    exact .inl rfl

theorem plain_of_withContents {f : List Content → Except Error α}
    (h : s.withContents f = .error e) (hf : ∀ cs, f cs = .error e → e.Plain) : e.Plain := by
  unfold withContents at h
  split at h
  · exact hf _ h
  · cases h
    exact .inl rfl

theorem plain_of_read {x : Row} (h : x.read = .error e) : e.Plain := by
  unfold Row.read at h
  split at h
  · cases h
  · cases h
    exact .inr (.inr rfl)

theorem plain_of_mapM_read {rows : List Row} (h : rows.mapM Row.read = .error e) : e.Plain := by
  induction rows with
  | nil => cases h
  | cons x rows ih =>
    rw [List.mapM_cons] at h
    cases hx : x.read with
    | error e' =>
      rw [hx] at h
      cases h
      exact plain_of_read hx
    | ok l =>
      rw [hx] at h
      cases hrows : rows.mapM Row.read with
      | error e' =>
        rw [hrows] at h
        cases h
        exact ih hrows
      | ok ls =>
        rw [hrows] at h
        cases h

theorem eq_error_of_map {x : Except Error α} {f : α → β} (h : x.map f = .error e) :
    x = .error e := by
  cases x with
  | ok a => cases h
  | error e' =>
    cases h
    rfl

/-- A query that the engine refuses on some condition, and goes on with otherwise. -/
theorem plain_of_refused {c : Prop} [Decidable c] {code : Nat} {message : String}
    {x : Except Error α} (h : (if c then .error (.database code message) else x) = .error e)
    (hx : x = .error e → e.Plain) : e.Plain := by
  split at h
  · cases h
    exact .inl rfl
  · exact hx h

theorem plain_of_perform {q : Query} (h : s.perform q = .error e) : e.Plain := by
  cases q with
  | insert l =>
    exact plain_of_withRows h fun rows h => plain_of_refused h fun h => plain_of_refused h nofun
  | get id =>
    refine plain_of_withRows (eq_error_of_map h) fun rows h => ?_
    split at h
    · cases h
    · exact plain_of_read (eq_error_of_map h)
  | list f => exact plain_of_withRows (eq_error_of_map h) fun rows h => plain_of_mapM_read h
  | count f => exact plain_of_withRows (eq_error_of_map h) fun rows h => by cases h
  | countByTopic | countByError =>
    exact plain_of_withRows (eq_error_of_map h) fun rows h => by cases h
  | mark id result time => exact plain_of_withRows h fun rows h => plain_of_refused h nofun
  | delete f => exact plain_of_withRows h fun rows h => plain_of_refused h nofun
  | putContent c => exact plain_of_withContents h fun cs h => by cases h
  | mergeContent id patch time =>
    refine plain_of_withContents h fun cs h => ?_
    split at h
    · cases h
    · split at h
      · cases h
        exact .inl rfl
      · cases h
        exact .inl rfl
      · cases h
  | getContent id => exact plain_of_withContents (eq_error_of_map h) fun cs h => by cases h

/-- Of the errors that the store raises by itself the text of the failure tells the truth. -/
theorem recognized_of_answer {q : Query} (h : (s.answer q).1 = .error e) :
    e.failure.isMissingTable = e.isMissingTable := by
  unfold answer at h
  split at h
  · cases h
    exact Error.Plain.recognized (.inr (.inl rfl))
  · split at h
    · cases h
    · next hp =>
      cases h
      exact (plain_of_perform hp).recognized

end Store

/-! ## Softened calls -/

/-- Whichever query of a call fails, with whatever error: the call has a result, which is nothing if
the query only reads for a call that can answer so and the text of the error names a missing table,
and otherwise the failure with that text.  The text names a missing table if the engine misses one,
and also if an error on the way to the engine happens to say so. -/
theorem failed_query_ends {env : Surroundings} {w : World} {t : List Exchange} {q : Query}
    {e : Store.Error} (service : Service) (c : Service.Call)
    (ht : (w.run env (c.program service)).2.journal = w.journal ++ t)
    (hfailed : ⟨.store q, some (.error e)⟩ ∈ t) :
    (w.run env (c.program service)).1 = some (c.ending q e) ∧
      (q.changes = true → c.ending q e = .error e.failure) ∧
      e.failure = .storage e.message ∧
      e.failure.isMissingTable = (e.isMissingTable ||
        !e.fromEngine && Text.contains e.message Failure.missingTablePhrase) := by
  obtain ⟨u, hg, hl⟩ := @World.run_goes _ env 0 w (c.program service)
  have hu : t = u.map Event.exchange := List.append_cancel_left (ht.symm.trans hl.journal)
  rw [hu] at hfailed
  exact ⟨(c.failsAs_program service).ended hg hfailed, fun hq => Service.Call.ending_of_changes hq e,
    rfl, e.isMissingTable_failure⟩

def Surroundings.refusing (refuses : Query → Bool) (e : Store.Error) : Surroundings :=
  { Router.calm with store := fun _ q => if refuses q then .fails e else .accepts }

/-- The last query of the statistics misses its table; a purge does the same when it deletes. -/
theorem failed_query_ends_missing :
    ((World.new .fresh).run (.refusing (· matches .countByError) (.missingTable "dead_letters"))
      Service.recording.stats).1 = some (.ok .zero) ∧
    ((World.new .fresh).run (.refusing (· matches .delete _) (.missingTable "dead_letters"))
      (Service.recording.purge {})).1 =
        some (.error (Store.Error.missingTable "dead_letters").failure) := by
  have hstats := @failed_query_ends (.refusing (· matches .countByError)
    (.missingTable "dead_letters")) (.new .fresh) _ .countByError _ .recording .stats
    (List.nil_append _).symm (List.mem_of_getElem? (i := 4) rfl)
  have hpurge := @failed_query_ends (.refusing (· matches .delete _)
    (.missingTable "dead_letters")) (.new .fresh) _ (.delete {}) _ .recording (.purge {})
    (List.nil_append _).symm (List.mem_of_getElem? (i := 2) rfl)
  exact ⟨hstats.1, hpurge.1⟩

/-- A connection that breaks with these words hides the dead letter that is there. -/
theorem broken_connection_softened :
    (Operation.sequence Router.calm (.new .fresh) [.store .recording .sample]).store.rows.length =
        1 ∧
      ((Operation.sequence Router.calm (.new .fresh) [.store .recording .sample]).run
        (.refusing (· matches .list _) (.communication "no such table"))
          (Service.recording.list {})).1 = some (.ok []) ∧
      (Store.Error.communication "no such table").isMissingTable = false ∧
      (Store.Error.communication "no such table").failure.isMissingTable = true := by
  refine ⟨by decide +kernel, rfl, rfl, by decide +kernel⟩

end DeadLetters
