import DeadLetters.Proofs.Series
import DeadLetters.Proofs.Warning

/-!
# Calls that are observed

Every call of the service that completes is counted once, under the name of its operation: as a
success, or as an error of its kind.  What an operation does on the way, such as the closing inside
of a replay, is not counted as a call.  Beside the calls, a replay that is accepted is counted, a
notification that is not, and a large purge.

    a program counts what it is told to, on each path to its end                 (Counts.counters)
    each call counts what it is told to, and then its outcome                (Call.reports_program)
-/

namespace DeadLetters

open Program Store

/-! ## Counters of a path -/

def Request.isCounter : Request → Bool
  | sample (.counter _ _ _) => true
  | _ => false

def Exchange.counter? : Exchange → Option Sample
  | ⟨.sample (.counter name value tags), _⟩ => some (.counter name value tags)
  | _ => none

theorem Exchange.counter?_eq_none {r : Request} (h : r.isCounter = false) (a : r.Answer) :
    Exchange.counter? ⟨r, a⟩ = none := by
  cases r with
  | sample s =>
    cases s with
    | counter => cases h
    | gauge | timing => rfl
  | _ => rfl

def counters (t : List Exchange) : List Sample := t.filterMap Exchange.counter?

theorem counters_cons (x : Exchange) (t : List Exchange) :
    counters (x :: t) = x.counter?.toList ++ counters t := by
  cases h : x.counter? <;> simp [counters, h]

theorem counters_append (t u : List Exchange) : counters (t ++ u) = counters t ++ counters u :=
  List.filterMap_append

/-- Gauges and timings add nothing to a counter. -/
theorem added_eq_counters (key : String) (t : List Exchange) :
    added key t = ((counters t).map (Sample.adds key)).sum := by
  induction t with
  | nil => rfl
  | cons x t ih =>
    have hx : x.adds key = (x.counter?.toList.map (Sample.adds key)).sum := by
      obtain ⟨r, a⟩ := x
      cases r with
      | sample s =>
        cases s with
        | counter => exact (Nat.add_zero _).symm
        | gauge | timing => rfl
      | _ => rfl
    rw [added_cons, ih, counters_cons, List.map_append, List.sum_append, hx]

namespace Program

variable {α β : Type}

/-- On every path to its end the program hands over the counters that it owes, and those that it is
told to by what it comes across. -/
def Counts (told : Exchange → List Sample) : List Sample → Program α → Prop
  | owed, done _ | owed, stuck => owed = []
  | owed, ask r next => ∀ a, ∃ left,
    owed ++ told ⟨r, a⟩ = (Exchange.counter? ⟨r, a⟩).toList ++ left ∧ (next a).Counts told left

def Uncounted (told : Exchange → List Sample) (r : Request) : Prop :=
  r.isCounter = false ∧ ∀ a, told ⟨r, a⟩ = []

variable {told : Exchange → List Sample} {owed : List Sample} {p : Program α} {f : α → Program β}
  {t : List Exchange} {o : Option α}

theorem Counts.counters (hp : p.Counts told owed) (h : p.Goes t (await o)) :
    counters t = owed ++ t.flatMap told := by
  induction p generalizing owed t with
  | done a =>
    obtain ⟨rfl, -⟩ := goes_done_iff.1 h
    rw [show owed = [] from hp]
    rfl
  | stuck =>
    obtain ⟨rfl, -⟩ := goes_stuck_iff.1 h
    rw [show owed = [] from hp]
    rfl
  | ask r next ih =>
    rcases goes_ask_iff.1 h with ⟨-, hr⟩ | ⟨a, u, rfl, hu⟩
    · cases o <;> cases hr
    · obtain ⟨left, hleft, hn⟩ := hp a
      rw [counters_cons, ih a hn hu, List.flatMap_cons, ← List.append_assoc, ← hleft,
        List.append_assoc]

theorem Counts.bind (hp : p.Counts told owed) (hf : ∀ a, (f a).Counts told []) :
    (p.bind f).Counts told owed := by
  induction p generalizing owed with
  | done a =>
    rw [show owed = [] from hp]
    exact hf a
  | stuck => exact hp
  | ask r next ih => exact fun a => (hp a).imp fun _ h => ⟨h.1, ih a h.2⟩

/-- What comes before something to count, and is not counted. -/
theorem counts_after (hp : p.Asks (Uncounted told)) (he : p.Ends)
    (hf : ∀ a, (f a).Counts told owed) : (p.bind f).Counts told owed := by
  induction p with
  | done a => exact hf a
  | stuck => exact he.elim
  | ask r next ih =>
    refine fun a => ⟨owed, ?_, ih a (hp.2 a) (he a)⟩
    rw [hp.1.2 a, Exchange.counter?_eq_none hp.1.1, List.append_nil]
    rfl

theorem counts_of_asks (hp : p.Asks (Uncounted told)) : p.Counts told [] := by
  induction p with
  | done a => rfl
  | stuck => rfl
  | ask r next ih =>
    refine fun a => ⟨[], ?_, ih a (hp.2 a)⟩
    rw [hp.1.2 a, Exchange.counter?_eq_none hp.1.1]
    rfl

theorem counts_emit {name : String} {value : Nat} {tags : Tags}
    (ht : told ⟨.sample (.counter name value tags), ()⟩ = []) :
    (emit .recorded (.counter name value tags)).Counts told [.counter name value tags] :=
  fun _ => ⟨[], congrArg (_ :: ·) ht, rfl⟩

end Program

/-! ## What calls count -/

namespace Service

open Program

variable {α : Type} {s : Service} {told : Exchange → List Sample}

def successName (operation : String) : String := "dlq." ++ operation ++ ".success"

def errorName (operation : String) : String := "dlq." ++ operation ++ ".error"

/-- The tag that an error carries beside its name. -/
def kindTag (k : Kind) : String × String := ("kind", k.name)

/-- What is counted of a call that completes. -/
def outcome (operation : String) : Except Failure α → Sample
  | .ok _ => .counter (successName operation) 1 []
  | .error f => .counter (errorName operation) 1 [kindTag f.kind]

/-- Only what is published, or asked of the store, is counted otherwise. -/
def Discreet (told : Exchange → List Sample) : Prop :=
  ∀ r : Request, r.isAside = true → ∀ a, told ⟨r, a⟩ = []

/-- The program counts what it is told to, and then its outcome, if it comes to one. -/
def Reports (told : Exchange → List Sample) (operation : String)
    (p : Program (Except Failure α)) : Prop :=
  ∀ t o, p.Goes t (await o) →
    counters t = t.flatMap told ++ (o.map (outcome operation)).toList

theorem Reports.after {β : Type} {p : Program β} {f : β → Program (Except Failure α)}
    {operation : String} (hp : p.Counts told []) (hf : ∀ b, Reports told operation (f b)) :
    Reports told operation (p.bind f) := by
  intro t o h
  rcases goes_bind_await_iff.1 h with ⟨rfl, hs⟩ | ⟨t₁, t₂, b, rfl, h₁, h₂⟩
  · rw [hp.counters (o := none) hs]
    simp
  · rw [counters_append, hp.counters (o := some b) h₁, hf b t₂ o h₂]
    simp

theorem uncounted_aside (hd : Discreet told) {r : Request} (hr : r.isAside = true)
    (hc : r.isCounter = false) : Uncounted told r := ⟨hc, hd r hr⟩

/-- What is said aside without a sample is neither a counter nor counted otherwise. -/
theorem lenient_uncounted (hd : Discreet told) :
    LenientTo (fun _ => False) (Uncounted told) := by
  refine fun r hr hs => uncounted_aside hd hr ?_
  cases r <;> first | rfl | exact (hs _ rfl).elim

theorem counts_report (hsink : s.sink = .recorded) (hd : Discreet told) (operation : String)
    (started : Nat) (r : Except Failure α) :
    (s.report operation started r).Counts told [outcome operation r] := by
  have hstopwatch := asks_stopwatch_iff.2 (uncounted_aside hd (r := .stopwatch) rfl rfl)
  have htiming : ∀ n, (emit s.sink (.timing ("dlq." ++ operation ++ ".duration") n [])).Asks
      (Uncounted told) := fun n =>
    asks_emit (uncounted_aside hd rfl rfl) (uncounted_aside hd rfl rfl)
  refine counts_after hstopwatch ends_stopwatch fun stopped => ?_
  refine counts_after (htiming _) (ends_emit _ _) fun _ => ?_
  cases r <;> rw [hsink] <;> exact counts_emit (hd (.sample _) rfl ())

/-- An observed operation counts its outcome behind what its body counts. -/
theorem reports_observed (hsink : s.sink = .recorded) (hd : Discreet told) {operation : String}
    {body : Program (Except Failure α)} (hb : body.Counts told []) :
    Reports told operation (s.observed operation body) := by
  have hstopwatch := asks_stopwatch_iff.2 (uncounted_aside hd (r := .stopwatch) rfl rfl)
  refine Reports.after (counts_of_asks hstopwatch) fun started => Reports.after hb fun r => ?_
  intro t o h
  have hlast : ((s.report operation started r).bind fun _ => done r).Asks fun r =>
      r.isAside = true := (asks_report lenient_aside s operation started r).bind fun _ => asks_done _
  have hquiet : t.flatMap told = [] :=
    List.flatMap_eq_nil_iff.2 fun x hx => hd x.1 (hlast.request h x hx) x.2
  have hcounts := (counts_report hsink hd operation started r).bind (f := fun _ => done r)
    fun _ => rfl
  rw [hcounts.counters h, hquiet, h.returned (ends_report s operation started r)]
  rfl

/-! ## What is counted beside the outcomes -/

/-- A notification that has failed or timed out. -/
def lostNotification : Sample := .counter "dlq.notify.error" 1 []

/-- A replay on a topic. -/
def publishedReplay (topic : String) : Sample :=
  .counter "dlq.replay.published" 1 [("topic", topic)]

def largePurge : Sample := .counter "dlq.purge.large" 1 []

/-- Counts a publication by what came of it. -/
def toldOfSend (accepted : String → List Sample) (lost : List Sample) : Exchange → List Sample
  | ⟨.send topic _, some (.ok ())⟩ => accepted topic
  | ⟨.send _ _, _⟩ => lost
  | _ => []

def toldOfPurge (s : Service) : Exchange → List Sample
  | ⟨.store (.count _), some (.ok (n : Nat))⟩ =>
    if s.purgeWarningThreshold.toNat < n then [largePurge] else []
  | _ => []

theorem toldOfSend_eq_nil {accepted : String → List Sample} {lost : List Sample} {r : Request}
    (hr : r.isSend = false) (a : r.Answer) : toldOfSend accepted lost ⟨r, a⟩ = [] := by
  cases r <;> first | rfl | cases hr

theorem discreet_toldOfSend (accepted : String → List Sample) (lost : List Sample) :
    Discreet (toldOfSend accepted lost) :=
  fun _ hr a => toldOfSend_eq_nil (lenient_not_send.aside hr) a

theorem lenient_toldOfSend (accepted : String → List Sample) (lost : List Sample) :
    LenientTo (fun _ => False) (Uncounted (toldOfSend accepted lost)) :=
  lenient_uncounted (discreet_toldOfSend accepted lost)

theorem discreet_toldOfPurge (s : Service) : Discreet s.toldOfPurge := by
  intro r hr a
  cases r <;> first | rfl | cases hr

/-! ## Bodies -/

/-- A line of the log before a result is not counted. -/
theorem counts_said {β : Type} (hd : Discreet told) (e : Log.Event) (b : β) :
    ((log e).bind fun _ => done b).Counts told [] :=
  counts_of_asks (((lenient_uncounted hd).log e).bind fun _ => asks_done _)

theorem reports_store (hsink : s.sink = .recorded) (hd : Discreet told)
    (hi : ∀ l a, told ⟨.store (.insert l), a⟩ = []) (d : Draft) :
    Reports told "store" (s.store d) := by
  refine reports_observed hsink hd ?_
  split
  · exact counts_of_asks (asks_insert (lenient_uncounted hd) fun _ _ _ => ⟨rfl, hi _⟩)
  · exact counts_said hd _ _

theorem counts_notify (hsink : s.sink = .recorded) (d : Draft) :
    (s.notify d).Counts (toldOfSend (fun _ => []) [lostNotification]) [] := by
  have hl := lenient_toldOfSend (fun _ => []) [lostNotification]
  have lost : ∀ e : Log.Event, ((emit s.sink lostNotification).bind fun _ => log e).Counts
      (toldOfSend (fun _ => []) [lostNotification]) [lostNotification] := by
    intro e
    rw [hsink]
    exact (counts_emit rfl).bind fun _ => counts_of_asks (hl.log e)
  unfold notify
  split
  · exact counts_of_asks (hl.log _)
  · rw [within_send]
    intro sent
    rcases sent with _ | e | ⟨⟩
    · exact ⟨_, rfl, lost _⟩
    · exact ⟨_, rfl, lost _⟩
    · exact ⟨_, rfl, rfl⟩

theorem counts_publish (hsink : s.sink = .recorded) (l : DeadLetter) (body : String) :
    (s.publish l body).Counts (toldOfSend (fun topic => [publishedReplay topic]) []) [] := by
  have hd := discreet_toldOfSend (fun topic => [publishedReplay topic]) []
  have published : ∀ result : String,
      ((emit s.sink (publishedReplay l.topic)).bind fun _ => done result).Counts
        (toldOfSend (fun topic => [publishedReplay topic]) []) [publishedReplay l.topic] := by
    intro result
    rw [hsink]
    exact (counts_emit rfl).bind fun _ => rfl
  unfold publish
  split
  · exact counts_said hd _ _
  · intro sent
    rcases sent with _ | e | ⟨⟩
    · exact ⟨_, rfl, rfl⟩
    · exact ⟨_, rfl, counts_said hd _ _⟩
    · exact ⟨_, rfl, published _⟩

theorem counts_attempt (hsink : s.sink = .recorded) (l : DeadLetter) (payload : Json.Value) :
    (s.attempt l payload).Counts (toldOfSend (fun topic => [publishedReplay topic]) []) [] := by
  unfold attempt
  split
  · exact (rfl : ([] : List Sample) = [])
  · exact counts_said (discreet_toldOfSend _ _) _ _
  · exact counts_publish hsink l _

theorem counts_replayAndClose (hsink : s.sink = .recorded) (id : String) (l : DeadLetter) :
    (s.replayAndClose id l).Counts (toldOfSend (fun topic => [publishedReplay topic]) []) [] := by
  have hl := lenient_toldOfSend (fun topic => [publishedReplay topic]) []
  have unsent : ∀ q, Uncounted (toldOfSend (fun topic => [publishedReplay topic]) [])
      (.store q) := fun _ => ⟨rfl, fun _ => rfl⟩
  unfold replayAndClose
  split
  · exact counts_of_asks ((hl.log _).bind fun _ =>
      asks_closeUnreadable hl (fun _ => unsent _) (unsent _))
  · refine (counts_attempt hsink l _).bind fun result => ?_
    refine (counts_of_asks (asks_close hl (fun _ => unsent _) (unsent _))).bind fun c => ?_
    rcases c with f | ⟨stored, closed⟩
    · exact (rfl : ([] : List Sample) = [])
    · exact counts_said (discreet_toldOfSend _ _) _ _

theorem reports_reprocess (hsink : s.sink = .recorded) (id : String) :
    Reports (toldOfSend (fun topic => [publishedReplay topic]) []) "reprocess"
      (s.reprocess id) := by
  have hd := discreet_toldOfSend (fun topic => [publishedReplay topic]) []
  refine reports_observed hsink hd ?_
  refine (counts_of_asks (asks_query_iff.2 ⟨rfl, fun _ => rfl⟩)).bind fun answer => ?_
  rcases answer with e | _ | l
  · exact counts_said hd _ _
  · exact counts_said hd _ _
  · show (if l.reprocessed then (log (event .info "reprocess"
        "dead letter already reprocessed" [("id", .quoted id)])).bind fun _ =>
          done (.ok (l.recoveryResult.getD ""))
        else s.replayAndClose id l).Counts _ []
    split
    · exact counts_said hd _ _
    · exact counts_replayAndClose hsink id l

theorem reports_purge (hsink : s.sink = .recorded) (f : Filter) :
    Reports s.toldOfPurge "purge" (s.purge f) := by
  have hd := discreet_toldOfPurge s
  have deleted : (delete f).Counts s.toldOfPurge [] := by
    refine (counts_of_asks (asks_query_iff.2 ⟨rfl, fun _ => rfl⟩)).bind fun answer => ?_
    cases answer <;> exact counts_said hd _ _
  refine reports_observed hsink hd fun answer => ?_
  rcases answer with _ | e | (n : Nat)
  · exact ⟨_, rfl, rfl⟩
  · refine ⟨_, rfl, ?_⟩
    show (if e.failure.isMissingTable then _ else _ : Program (Except Failure Nat)).Counts _ _
    split <;> exact counts_said hd _ _
  · refine ⟨_, rfl, ?_⟩
    show ((s.warnOfPurge f n).bind fun _ => delete f).Counts s.toldOfPurge
      (if s.purgeWarningThreshold.toNat < n then [largePurge] else [])
    unfold warnOfPurge
    split
    · rw [hsink]
      refine Counts.bind (Counts.bind (counts_emit rfl) fun _ => ?_) fun _ => deleted
      exact counts_of_asks ((lenient_uncounted hd).log _)
    · exact deleted

theorem reports_stats (hsink : s.sink = .recorded) (hd : Discreet told)
    (hq : ∀ q a, told ⟨.store q, a⟩ = []) : Reports told "stats" s.stats := by
  have uncounted : ∀ q, Uncounted told (.store q) := fun q => ⟨rfl, hq q⟩
  have pending : ∀ st, (s.reportPending st).Asks (Uncounted told) := fun st =>
    (asks_emit (uncounted_aside hd rfl rfl) (uncounted_aside hd rfl rfl)).bind fun _ => asks_done _
  rw [stats_eq]
  refine reports_observed hsink hd ?_
  refine (counts_of_asks (asks_collect (fun _ => uncounted _) (uncounted _)
    (uncounted _))).bind fun r => ?_
  unfold concluded
  split
  · exact counts_of_asks (pending _)
  · split
    · exact counts_of_asks (((lenient_uncounted hd).log _).bind fun _ => pending _)
    · exact counts_said hd _ _

namespace Call

/-- The operation that a call is counted as. -/
def operation : Call → String
  | store _ | giveUp _ _ _ => "store"
  | markReprocessed _ _ => "mark_reprocessed"
  | reprocess _ => "reprocess"
  | purge _ => "purge"
  | list _ => "list"
  | stats => "stats"

/-- What a call counts beside its outcome. -/
def counted (s : Service) : Call → Exchange → List Sample
  | giveUp _ _ _ => toldOfSend (fun _ => []) [lostNotification]
  | reprocess _ => toldOfSend (fun topic => [publishedReplay topic]) []
  | purge _ => s.toldOfPurge
  | store _ | markReprocessed _ _ | list _ | stats => fun _ => []

theorem reports_program (hsink : s.sink = .recorded) (c : Call) :
    Reports (c.counted s) c.operation (c.program s) := by
  have hd : Discreet fun _ => [] := fun _ _ _ => rfl
  have nothing : ∀ q, Uncounted (fun _ => []) (.store q) := fun _ => ⟨rfl, fun _ => rfl⟩
  cases c with
  | store d => exact reports_store hsink hd (fun _ _ => rfl) d
  | giveUp payload f o =>
    have hl := lenient_toldOfSend (fun _ => []) [lostNotification]
    refine Reports.after (counts_of_asks hl.clock) fun now => ?_
    refine Reports.after (counts_notify hsink _) fun _ => ?_
    exact reports_store hsink (discreet_toldOfSend _ _) (fun _ _ => rfl) _
  | markReprocessed id result =>
    have hclose : (close id result).Asks (Uncounted fun _ => []) :=
      asks_close (lenient_uncounted hd) (fun _ => nothing _) (nothing _)
    exact reports_observed hsink hd (counts_of_asks (hclose.bind fun _ => asks_done _))
  | reprocess id => exact reports_reprocess hsink id
  | purge f => exact reports_purge hsink f
  | list f =>
    refine reports_observed hsink hd ?_
    refine (counts_of_asks (asks_query_iff.2 (nothing _))).bind fun answer => ?_
    rcases answer with e | ls
    · show (if e.failure.isMissingTable then _ else _ :
        Program (Except Failure (List DeadLetter))).Counts _ _
      split <;> exact counts_said hd _ _
    · exact (rfl : ([] : List Sample) = [])
  | stats => exact reports_stats hsink hd fun _ _ => rfl

end Call

end Service

end DeadLetters
