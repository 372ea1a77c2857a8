import DeadLetters.Proofs.Observing

/-!
# Calls in sequence

Calls of the service are performed one after another, on one sink, whatever the store and the
transport do meanwhile.  A call that never returns is left behind, and the next one follows.  What
the sink shows afterwards is an account of the calls, and what the log shows leaves no failure out.

    what one call adds to each counter                                       (accounted_of_goes)
    the exchanges of the calls make up the journal                         (performs_performAll)
    each call is counted once, and no failure is silent                    (calls_observed_once)
-/

namespace DeadLetters

open Program Store

namespace Service

/-! ## Names -/

def operations : List String :=
  ["store", "list", "stats", "mark_reprocessed", "reprocess", "purge"]

theorem Call.operation_mem (c : Call) : c.operation ∈ operations := by
  cases c <;> simp [Call.operation, operations]

/-- The names of what is counted beside the outcomes. -/
def sideNames : List String := ["dlq.notify.error", "dlq.replay.published", "dlq.purge.large"]

theorem brace_notMem_names : ∀ op ∈ operations,
    '\x7b' ∉ (successName op).toList ∧ '\x7b' ∉ (errorName op).toList := by
  decide +kernel

theorem brace_notMem_sideNames : ∀ n ∈ sideNames, '\x7b' ∉ n.toList := by
  decide +kernel

theorem names_inj : ∀ op ∈ operations, ∀ op' ∈ operations,
    (successName op' = successName op ↔ op' = op) ∧ (errorName op' = errorName op ↔ op' = op) := by
  decide +kernel

theorem names_ne : ∀ op ∈ operations, ∀ op' ∈ operations,
    successName op' ≠ errorName op ∧ successName op' ∉ sideNames ∧ errorName op' ∉ sideNames := by
  decide +kernel

theorem equals_notMem_kindTag (k : Kind) : '=' ∉ (kindTag k).1.toList := by
  cases k <;> decide

theorem kindTag_inj (k k' : Kind) : kindTag k = kindTag k' ↔ k = k' := by
  cases k <;> cases k' <;> decide

/-! ## What an outcome adds -/

section

variable {α : Type} {op op' : String}

def isSuccess : Except Failure α → Bool
  | .ok _ => true
  | .error _ => false

def isError : Except Failure α → Bool
  | .ok _ => false
  | .error _ => true

def isErrorOf (k : Kind) : Except Failure α → Bool
  | .ok _ => false
  | .error f => f.kind = k

theorem separable_outcome (hop : op ∈ operations) (r : Except Failure α) :
    (outcome op r).Separable := by
  obtain ⟨hs, he⟩ := brace_notMem_names op hop
  cases r with
  | ok a => exact ⟨hs, Nat.zero_le 1, nofun⟩
  | error f =>
    refine ⟨he, Nat.le_refl 1, fun t ht => ?_⟩
    rw [List.mem_singleton.1 ht]
    exact equals_notMem_kindTag f.kind

theorem outcome_adds_success (hop : op ∈ operations) (hop' : op' ∈ operations)
    (r : Except Failure α) :
    (outcome op' r).adds (successName op) = (decide (op' = op) && isSuccess r).toNat := by
  rw [Sample.adds_name_of_separable (separable_outcome hop' r) (brace_notMem_names op hop).1]
  cases r with
  | ok a =>
    by_cases h : op' = op <;>
      simp [outcome, Sample.worth, isSuccess, names_inj op hop op' hop', h]
  | error f => simp [outcome, Sample.worth, isSuccess, (names_ne op' hop' op hop).1.symm]

theorem outcome_adds_error (hop : op ∈ operations) (hop' : op' ∈ operations)
    (r : Except Failure α) :
    (outcome op' r).adds (errorName op) = (decide (op' = op) && isError r).toNat := by
  rw [Sample.adds_name_of_separable (separable_outcome hop' r) (brace_notMem_names op hop).2]
  cases r with
  | ok a => simp [outcome, Sample.worth, isError, (names_ne op hop op' hop').1]
  | error f =>
    by_cases h : op' = op <;>
      simp [outcome, Sample.worth, isError, names_inj op hop op' hop', h]

theorem outcome_adds_kind (hop : op ∈ operations) (hop' : op' ∈ operations)
    (r : Except Failure α) (k : Kind) :
    (outcome op' r).adds (seriesKey (errorName op) [kindTag k]) =
      (decide (op' = op) && isErrorOf k r).toNat := by
  rw [Sample.adds_series_of_separable (separable_outcome hop' r) (brace_notMem_names op hop).2
    (equals_notMem_kindTag k)]
  cases r with
  | ok a => simp [outcome, Sample.worthWith, isErrorOf]
  | error f =>
    by_cases h : op' = op <;> by_cases hk : f.kind = k <;>
      simp [outcome, Sample.worthWith, isErrorOf, names_inj op hop op' hop', h, kindTag_inj, hk]

theorem outcome_adds_side {n : String} (hn : n ∈ sideNames) (hop : op ∈ operations)
    (r : Except Failure α) : (outcome op r).adds n = 0 := by
  obtain ⟨-, hs, he⟩ := names_ne op hop op hop
  rw [Sample.adds_name_of_separable (separable_outcome hop r) (brace_notMem_sideNames n hn)]
  cases r with
  | ok a => exact if_neg fun h : successName op = n => hs (h ▸ hn)
  | error f => exact if_neg fun h : errorName op = n => he (h ▸ hn)

end

/-! ## What is added on the way -/

namespace Call

variable {c : Call} {s : Service} {x : Exchange} {y : Sample} {op : String}

/-- Whether an exchange of the call is a replay that has been accepted. -/
def replays : Call → Exchange → Bool
  | reprocess _, x => x.sent?.isSome
  | _, _ => false

/-- Whether an exchange of the call is a notification that has failed or timed out. -/
def loses : Call → Exchange → Bool
  | giveUp _ _ _, x => x.request.isSend && x.sent?.isNone
  | _, _ => false

/-- What is counted beside the outcome of a call, measured by what a sample is worth. -/
theorem sum_counted {g : Sample → Nat} {a b : Nat} (hlost : g lostNotification = a)
    (hreplay : ∀ topic, g (publishedReplay topic) = b) (hlarge : g largePurge = 0) (s : Service)
    (c : Call) (x : Exchange) :
    ((c.counted s x).map g).sum = (c.loses x).toNat * a + (c.replays x).toNat * b := by
  have none_counted : ∀ {l : List Sample} {m n : Bool}, l = [] → m = false → n = false →
      (l.map g).sum = m.toNat * a + n.toNat * b := by
    rintro _ _ _ rfl rfl rfl
    simp
  have lost_counted : ([lostNotification].map g).sum = true.toNat * a + false.toNat * b := by
    simp [hlost]
  obtain ⟨r, answer⟩ := x
  cases c with
  | giveUp =>
    cases r with
    | send =>
      rcases answer with _ | e | ⟨⟩
      · exact lost_counted
      · exact lost_counted
      · exact none_counted rfl rfl rfl
    | _ => exact none_counted rfl rfl rfl
  | reprocess =>
    cases r with
    | send topic =>
      rcases answer with _ | e | ⟨⟩
      · exact none_counted rfl rfl rfl
      · exact none_counted rfl rfl rfl
      · show ([publishedReplay topic].map g).sum = false.toNat * a + true.toNat * b
        simp [hreplay]
    | _ => exact none_counted rfl rfl rfl
  | purge =>
    cases r with
    | store q =>
      cases q with
      | count =>
        rcases answer with _ | e | (n : Nat)
        · exact none_counted rfl rfl rfl
        · exact none_counted rfl rfl rfl
        · show ((if s.purgeWarningThreshold.toNat < n then [largePurge] else []).map g).sum =
            false.toNat * a + false.toNat * b
          split <;> simp [hlarge]
      | _ => exact none_counted rfl rfl rfl
    | _ => exact none_counted rfl rfl rfl
  | _ => exact none_counted rfl rfl rfl

theorem sum_counted_path {g : Sample → Nat} {a b : Nat} (hlost : g lostNotification = a)
    (hreplay : ∀ topic, g (publishedReplay topic) = b) (hlarge : g largePurge = 0) (s : Service)
    (c : Call) (t : List Exchange) :
    ((t.flatMap (c.counted s)).map g).sum = t.countP c.loses * a + t.countP c.replays * b := by
  induction t with
  | nil => simp
  | cons x t ih =>
    rw [List.flatMap_cons, List.map_append, List.sum_append, ih,
      sum_counted hlost hreplay hlarge, List.countP_cons, List.countP_cons]
    cases c.loses x <;> cases c.replays x <;> simp [Nat.add_mul] <;> omega

/-- What a path of a call adds to a counter. -/
theorem added_of_goes (hsink : s.sink = .recorded) {t : List Exchange}
    {o : Option (Except Failure c.Result)} (h : (c.program s).Goes t (await o)) {key : String}
    {a b : Nat} (hlost : lostNotification.adds key = a)
    (hreplay : ∀ topic, (publishedReplay topic).adds key = b)
    (hlarge : largePurge.adds key = 0) {P : Except Failure c.Result → Bool}
    (hP : ∀ r, (outcome c.operation r).adds key = (P r).toNat) :
    added key t = t.countP c.loses * a + t.countP c.replays * b + (o.any P).toNat := by
  rw [added_eq_counters, reports_program hsink c t o h, List.map_append, List.sum_append,
    sum_counted_path hlost hreplay hlarge]
  cases o with
  | none => rfl
  | some r => simp [hP r]

end Call

/-! ## Samples beside the outcomes -/

theorem separable_lostNotification : lostNotification.Separable :=
  ⟨brace_notMem_sideNames _ (by simp [sideNames]), Nat.zero_le 1, nofun⟩

theorem separable_publishedReplay (topic : String) : (publishedReplay topic).Separable := by
  refine ⟨brace_notMem_sideNames _ (by simp [sideNames]), Nat.le_refl 1, fun t ht => ?_⟩
  rw [List.mem_singleton.1 ht]
  exact of_decide_eq_true (p := '=' ∉ "topic".toList) rfl

theorem separable_largePurge : largePurge.Separable :=
  ⟨brace_notMem_sideNames _ (by simp [sideNames]), Nat.zero_le 1, nofun⟩

/-- The counter under the key gets no more than what is recorded under the name. -/
def Under (name key : String) : Prop := ∀ y : Sample, y.Separable → y.adds key ≤ y.worth name

theorem under_self {name : String} (h : '\x7b' ∉ name.toList) : Under name name :=
  fun _ hy => Nat.le_of_eq (Sample.adds_name_of_separable hy h)

theorem under_series {name : String} {tag : String × String} (h : '\x7b' ∉ name.toList)
    (ht : '=' ∉ tag.1.toList) : Under name (seriesKey name [tag]) := by
  intro y hy
  rw [Sample.adds_series_of_separable hy h ht]
  exact y.worthWith_le_worth name tag

theorem Under.adds_eq_zero {name key n : String} {value : Nat} {tags : Tags}
    (h : Under name key) (hsep : (Sample.counter n value tags).Separable) (hne : n ≠ name) :
    (Sample.counter n value tags).adds key = 0 := by
  have hle := h _ hsep
  rw [Sample.worth, if_neg hne] at hle
  exact Nat.le_zero.1 hle

/-! ## Calls as they have been performed -/

/-- A call, what came of it, and what it exchanged with its surroundings. -/
structure Performed where
  service : Service
  call : Call
  /-- None if the call never returns. -/
  result : Option (Except Failure call.Result)
  exchanges : List Exchange

namespace Performed

/-- The call has completed as an operation, with a result of some kind. -/
def endsAs (op : String) (p : Performed) (P : Except Failure p.call.Result → Bool) : Bool :=
  p.result.any fun r => decide (p.call.operation = op) && P r

def completed (op : String) (p : Performed) : Bool := p.endsAs op fun _ => true

def succeeded (op : String) (p : Performed) : Bool := p.endsAs op isSuccess

def failed (op : String) (p : Performed) : Bool := p.endsAs op isError

def failedAs (op : String) (k : Kind) (p : Performed) : Bool := p.endsAs op (isErrorOf k)

/-- What the call has added to the counters, and whether it has warned of what failed. -/
structure Accounted (p : Performed) : Prop where
  success : ∀ op ∈ operations, added (successName op) p.exchanges = (p.succeeded op).toNat
  error : ∀ op ∈ operations, added (errorName op) p.exchanges = (p.failed op).toNat
  kind : ∀ op ∈ operations, ∀ k,
    added (seriesKey (errorName op) [kindTag k]) p.exchanges = (p.failedAs op k).toNat
  replayed : added "dlq.replay.published" p.exchanges = p.exchanges.countP p.call.replays
  lost : added "dlq.notify.error" p.exchanges = p.exchanges.countP p.call.loses
  warned : ∀ r, p.result = some r → p.exchanges.any Exchange.failed = true ∨ isError r = true →
    ∃ x ∈ p.exchanges, x.request.isLoud = true

theorem accounted_of_goes {p : Performed} (hsink : p.service.sink = .recorded)
    (h : (p.call.program p.service).Goes p.exchanges (await p.result)) : p.Accounted := by
  have hop := p.call.operation_mem
  have outcomes : ∀ {name key : String}, Under name key → name ∉ sideNames →
      ∀ {P : Except Failure p.call.Result → Bool},
      (∀ r, (outcome p.call.operation r).adds key = (P r).toNat) →
      added key p.exchanges = (p.result.any P).toNat := by
    intro name key hunder hside P hP
    have hne : ∀ n ∈ sideNames, n ≠ name := fun n hn he => hside (he ▸ hn)
    have hadded := Call.added_of_goes hsink h
      (hunder.adds_eq_zero separable_lostNotification (hne _ (by simp [sideNames])))
      (fun topic => hunder.adds_eq_zero (separable_publishedReplay topic)
        (hne _ (by simp [sideNames])))
      (hunder.adds_eq_zero separable_largePurge (hne _ (by simp [sideNames]))) hP
    rw [hadded, Nat.mul_zero, Nat.mul_zero, Nat.zero_add]
  have side : ∀ {name : String}, name ∈ sideNames → ∀ {a b : Nat},
      lostNotification.adds name = a → (∀ topic, (publishedReplay topic).adds name = b) →
      largePurge.adds name = 0 →
      added name p.exchanges =
        p.exchanges.countP p.call.loses * a + p.exchanges.countP p.call.replays * b := by
    intro name hname a b hlost hreplay hlarge
    have hadded := Call.added_of_goes hsink h hlost hreplay hlarge (P := fun _ => false)
      (outcome_adds_side hname hop)
    rw [hadded]
    cases p.result <;> simp
  refine ⟨fun op hmem => ?_, fun op hmem => ?_, fun op hmem k => ?_, ?_, ?_, fun r hr hf => ?_⟩
  · exact outcomes (under_self (brace_notMem_names op hmem).1) (names_ne op hmem op hmem).2.1
      (outcome_adds_success hmem hop)
  · exact outcomes (under_self (brace_notMem_names op hmem).2) (names_ne op hmem op hmem).2.2
      (outcome_adds_error hmem hop)
  · exact outcomes (under_series (brace_notMem_names op hmem).2 (equals_notMem_kindTag k))
      (names_ne op hmem op hmem).2.2 (outcome_adds_kind hmem hop · k)
  · rw [side (by simp [sideNames]) (a := 0) (b := 1) (by decide +kernel) ?_ (by decide +kernel)]
    · simp
    · intro topic
      rw [Sample.adds_name_of_separable (separable_publishedReplay topic) (by decide)]
      simp [publishedReplay, Sample.worth]
  · rw [side (by simp [sideNames]) (a := 1) (b := 0) (by decide +kernel) ?_ (by decide +kernel)]
    · simp
    · intro topic
      rw [Sample.adds_name_of_separable (separable_publishedReplay topic) (by decide)]
      simp [publishedReplay, Sample.worth]
  · rw [hr] at h
    refine Call.warned_of_goes h (hf.imp_right fun he => ?_)
    cases r with
    | ok a => cases he
    | error f => exact ⟨f, rfl⟩

theorem sum_toNat {α : Type} (l : List α) (P : α → Bool) :
    (l.map fun x => (P x).toNat).sum = l.countP P := by
  induction l with
  | nil => rfl
  | cons x l ih =>
    rw [List.map_cons, List.sum_cons, ih, List.countP_cons]
    cases P x <;> simp [Nat.add_comm]

/-- A call that completes either succeeds or fails. -/
theorem countP_completed (ps : List Performed) (op : String) :
    ps.countP (·.completed op) = ps.countP (·.succeeded op) + ps.countP (·.failed op) := by
  have hone : ∀ p : Performed,
      (p.completed op).toNat = (p.succeeded op).toNat + (p.failed op).toNat := by
    intro p
    unfold completed succeeded failed endsAs
    rcases p.result with _ | f | a
    · rfl
    · cases decide (p.call.operation = op) <;> rfl
    · cases decide (p.call.operation = op) <;> rfl
  rw [← sum_toNat, ← sum_toNat, ← sum_toNat, ← List.sum_map_add]
  exact congrArg List.sum (List.map_congr_left fun p _ => hone p)

def kinds : List Kind := [.validation, .notFound, .storage, .processing]

/-- A call that fails does so with one of the four kinds. -/
theorem countP_failed (ps : List Performed) (op : String) :
    ps.countP (·.failed op) = (kinds.map fun k => ps.countP (·.failedAs op k)).sum := by
  have hone : ∀ p : Performed, (p.failed op).toNat = (p.failedAs op .validation).toNat +
      ((p.failedAs op .notFound).toNat + ((p.failedAs op .storage).toNat +
        (p.failedAs op .processing).toNat)) := by
    intro p
    unfold failed failedAs endsAs
    rcases p.result with _ | f | a
    · rfl
    · obtain ⟨k, detail⟩ := f
      cases decide (p.call.operation = op) <;> cases k <;> rfl
    · cases decide (p.call.operation = op) <;> rfl
  simp only [kinds, List.map_cons, List.map_nil, List.sum_cons, List.sum_nil, Nat.add_zero]
  simp only [← sum_toNat, ← List.sum_map_add]
  exact congrArg List.sum (List.map_congr_left fun p _ => hone p)

end Performed

open Performed

def perform (env : Surroundings) (w : World) (s : Service) (c : Call) : Performed :=
  ⟨s, c, (w.run env (c.program s)).1,
    (w.run env (c.program s)).2.journal.drop w.journal.length⟩

/-- Performs calls one after another, each by its service. -/
def performAll (env : Surroundings) : World → List (Service × Call) → List Performed × World
  | w, [] => ([], w)
  | w, (s, c) :: cs =>
    let (ps, w') := performAll env (w.run env (c.program s)).2 cs
    (perform env w s c :: ps, w')

variable {env : Surroundings} {w : World} {s : Service} {c : Call} {cs : List (Service × Call)}

theorem performAll_cons (env : Surroundings) (w : World) (s : Service) (c : Call)
    (cs : List (Service × Call)) :
    performAll env w ((s, c) :: cs) =
      (perform env w s c :: (performAll env (w.run env (c.program s)).2 cs).1,
        (performAll env (w.run env (c.program s)).2 cs).2) := rfl

/-- What a call exchanges is the way that its program goes, and the end of the journal. -/
theorem perform_goes (env : Surroundings) (w : World) (s : Service) (c : Call) :
    (c.program s).Goes (perform env w s c).exchanges (await (perform env w s c).result) ∧
      (w.run env (c.program s)).2.journal = w.journal ++ (perform env w s c).exchanges := by
  obtain ⟨t, hg, hl⟩ := @World.run_goes _ env 0 w (c.program s)
  have hmine : (perform env w s c).exchanges = t.map Event.exchange := by
    rw [perform, hl.journal, List.drop_left]
  rw [hmine]
  exact ⟨hg, hl.journal⟩

/-- The calls go from one world to another. -/
structure Performs (cs : List (Service × Call)) (w : World) (ps : List Performed) (w' : World) :
    Prop where
  calls : ps.map (fun p => (p.service, p.call)) = cs
  journal : w'.journal = w.journal ++ ps.flatMap Performed.exchanges
  goes : ∀ p ∈ ps, (p.call.program p.service).Goes p.exchanges (await p.result)

theorem performs_performAll (env : Surroundings) (w : World) (cs : List (Service × Call)) :
    Performs cs w (performAll env w cs).1 (performAll env w cs).2 := by
  induction cs generalizing w with
  | nil => exact ⟨rfl, (List.append_nil _).symm, fun p hp => absurd hp List.not_mem_nil⟩
  | cons sc cs ih =>
    obtain ⟨s, c⟩ := sc
    obtain ⟨hg, hjournal⟩ := perform_goes env w s c
    have hrest := ih (w.run env (c.program s)).2
    rw [performAll_cons]
    refine ⟨?_, ?_, fun p hp => ?_⟩
    · rw [List.map_cons, hrest.calls, perform]
    · rw [hrest.journal, hjournal, List.flatMap_cons, List.append_assoc]
    · rcases List.mem_cons.1 hp with rfl | hp
      · exact hg
      · exact hrest.goes p hp

/-! ## Accounts -/

/-- A counter has grown, as a word does. -/
def Grows (before after : Tally) (key : String) (n : Nat) : Prop :=
  after.counter key = (before.counter key + n) % UInt64.size

/-- The errors of an operation are those of each kind together. -/
def Balanced (op : String) (t : Tally) : Prop :=
  t.counter (errorName op) =
    (kinds.map fun k => t.tagged (errorName op) [kindTag k]).sum % UInt64.size

/-- The counters have grown by the calls, and the calls have been silent about no failure. -/
structure Observed (ps : List Performed) (before after : Tally) : Prop where
  /-- Every call that completes counts once for its operation: as a success if it has a result, -/
  success : ∀ op ∈ operations,
    Grows before after (successName op) (ps.countP (·.succeeded op))
  /-- and as an error otherwise. -/
  error : ∀ op ∈ operations, Grows before after (errorName op) (ps.countP (·.failed op))
  completed : ∀ op,
    ps.countP (·.completed op) = ps.countP (·.succeeded op) + ps.countP (·.failed op)
  kind : ∀ op ∈ operations, ∀ k,
    Grows before after (seriesKey (errorName op) [kindTag k]) (ps.countP (·.failedAs op k))
  balanced : ∀ op ∈ operations, Balanced op before → Balanced op after
  replayed : Grows before after "dlq.replay.published"
    (ps.map fun p => p.exchanges.countP p.call.replays).sum
  lost : Grows before after "dlq.notify.error"
    (ps.map fun p => p.exchanges.countP p.call.loses).sum
  /-- Behind an error, and behind a query or a publication that has failed, there is a warning. -/
  warned : ∀ p ∈ ps, ∀ r, p.result = some r →
    p.exchanges.any Exchange.failed = true ∨ isError r = true →
      ∃ x ∈ p.exchanges, x.request.isLoud = true

theorem added_flatMap (key : String) (ps : List Performed) :
    added key (ps.flatMap Performed.exchanges) = (ps.map fun p => added key p.exchanges).sum := by
  induction ps with
  | nil => rfl
  | cons p ps ih => rw [List.flatMap_cons, added_append, ih, List.map_cons, List.sum_cons]

theorem Performs.grows {ps : List Performed} {w' : World} (h : Performs cs w ps w') {key : String}
    {f : Performed → Nat} (hf : ∀ p ∈ ps, added key p.exchanges = f p) :
    Grows (tallyOf w.journal) (tallyOf w'.journal) key (ps.map f).sum := by
  rw [Grows, h.journal, counter_tallyOf_append, added_flatMap, List.map_congr_left hf]

theorem Grows.balanced {ps : List Performed} {op : String} {before after : Tally}
    (herror : Grows before after (errorName op) (ps.countP (·.failed op)))
    (hkind : ∀ k, Grows before after (seriesKey (errorName op) [kindTag k])
      (ps.countP (·.failedAs op k)))
    (h : Balanced op before) : Balanced op after := by
  have hsum := countP_failed ps op
  have hv := hkind .validation
  have hn := hkind .notFound
  have hs := hkind .storage
  have hp := hkind .processing
  -- all of them grow modulo the size of a word, and so does the sum of the kinds
  simp only [Balanced, Grows, kinds, Tally.tagged, List.map_cons, List.map_nil, List.sum_cons,
    List.sum_nil, UInt64.size] at *
  omega

theorem Performs.observed {ps : List Performed} {w' : World} (h : Performs cs w ps w')
    (hsink : ∀ sc ∈ cs, sc.1.sink = .recorded) :
    Observed ps (tallyOf w.journal) (tallyOf w'.journal) := by
  have haccount : ∀ p ∈ ps, p.Accounted := by
    intro p hp
    have hmem : (p.service, p.call) ∈ cs := by
      rw [← h.calls]
      exact List.mem_map_of_mem (f := fun p : Performed => (p.service, p.call)) hp
    exact accounted_of_goes (hsink _ hmem) (h.goes p hp)
  have herror : ∀ op ∈ operations, Grows (tallyOf w.journal) (tallyOf w'.journal) (errorName op)
      (ps.countP (·.failed op)) := fun op hop =>
    sum_toNat ps _ ▸ h.grows fun p hp => (haccount p hp).error op hop
  have hkind : ∀ op ∈ operations, ∀ k, Grows (tallyOf w.journal) (tallyOf w'.journal)
      (seriesKey (errorName op) [kindTag k]) (ps.countP (·.failedAs op k)) := fun op hop k =>
    sum_toNat ps _ ▸ h.grows fun p hp => (haccount p hp).kind op hop k
  exact {
    success := fun op hop => sum_toNat ps _ ▸ h.grows fun p hp => (haccount p hp).success op hop
    error := herror
    completed := countP_completed ps
    kind := hkind
    balanced := fun op hop => Grows.balanced (herror op hop) (hkind op hop)
    replayed := h.grows fun p hp => (haccount p hp).replayed
    lost := h.grows fun p hp => (haccount p hp).lost
    warned := fun p hp => (haccount p hp).warned }

def batch (s : Service) (ids : List String) : List (Service × Call) :=
  ids.map fun id => (s, .reprocess id)

theorem performAll_batch_cons (env : Surroundings) (w : World) (s : Service) (id : String)
    (ids : List String) :
    (performAll env w (batch s (id :: ids))).2 =
      (performAll env (w.run env (s.reprocess id)).2 (batch s ids)).2 := rfl

/-- A batch leads where its calls lead: all of them, or those up to one that never returns. -/
theorem run_reprocessAll (env : Surroundings) (w : World) (s : Service) (ids : List String) :
    ∃ n ≤ ids.length,
      (w.run env (s.reprocessAll ids)).2 = (performAll env w (batch s (ids.take n))).2 ∧
        ((w.run env (s.reprocessAll ids)).1 ≠ none → n = ids.length) := by
  suffices hgo : ∀ results, ∃ n ≤ ids.length,
      (w.run env (reprocessAll.go s ids results)).2 =
        (performAll env w (batch s (ids.take n))).2 ∧
      ((w.run env (reprocessAll.go s ids results)).1 ≠ none → n = ids.length) from hgo .empty
  induction ids generalizing w with
  | nil => exact fun _ => ⟨0, Nat.le_refl 0, rfl, fun _ => rfl⟩
  | cons id ids ih =>
    intro results
    have hcons : reprocessAll.go s (id :: ids) results = (s.reprocess id).bind fun result =>
        reprocessAll.go s ids (results.insert id (entry result)) := rfl
    rw [hcons]
    rcases hrun : w.run env (s.reprocess id) with ⟨_ | r, w₁⟩
    -- a call that never returns is the last one of the batch
    · rw [World.run_bind_of_none hrun]
      refine ⟨1, by simp, ?_, fun hne => absurd rfl hne⟩
      rw [List.take_succ_cons, performAll_batch_cons, hrun]
      rfl
    · rw [World.run_bind_of hrun]
      obtain ⟨n, hn, hworld, hlast⟩ := ih w₁ (results.insert id (entry r))
      refine ⟨n + 1, by simpa using hn, ?_, fun hne => by simp [hlast hne]⟩
      rw [List.take_succ_cons, performAll_batch_cons, hrun, hworld]

/-- Every call of the service that completes is counted once, for its own operation, as a success
exactly if it has a result, and otherwise by the kind of its failure.  Replays that are accepted and
notifications that are not are counted too, and behind every failure there is a warning.  A batch is
a sequence of calls like any other. -/
theorem calls_observed_once (env : Surroundings) (w : World) {cs : List (Service × Call)}
    (hsink : ∀ sc ∈ cs, sc.1.sink = .recorded) :
    Performs cs w (performAll env w cs).1 (performAll env w cs).2 ∧
      Observed (performAll env w cs).1 (tallyOf w.journal)
        (tallyOf (performAll env w cs).2.journal) ∧
      ∀ (s : Service) (ids : List String), ∃ n ≤ ids.length,
        (w.run env (s.reprocessAll ids)).2 = (performAll env w (batch s (ids.take n))).2 ∧
          ((w.run env (s.reprocessAll ids)).1 ≠ none → n = ids.length) :=
  ⟨performs_performAll env w cs, (performs_performAll env w cs).observed hsink,
    run_reprocessAll env w⟩

/-- A dead letter is stored, one that does not exist is reprocessed, and a list is asked for. -/
def threeCalls : List (Service × Call) :=
  [(.recording, .store .sample), (.recording, .reprocess "?"), (.recording, .list {})]

/-- The store fails to list because it misses its table: that counts as a success, with a
warning. -/
theorem calls_observed_once_three :
    (∀ sc ∈ threeCalls, sc.1.sink = .recorded) ∧
      ∃ (ps : List Performed) (w : World),
        (ps, w) = performAll (.refusing (· matches .list _) (.missingTable "dead_letters"))
          (.new .fresh) threeCalls ∧
        (tallyOf w.journal).counter "dlq.store.success" = 1 ∧
        (tallyOf w.journal).counter "dlq.reprocess.success" = 0 ∧
        (tallyOf w.journal).counter "dlq.reprocess.error" = 1 ∧
        (tallyOf w.journal).tagged "dlq.reprocess.error" [("kind", "NotFoundError")] = 1 ∧
        (tallyOf w.journal).counter "dlq.list.success" = 1 ∧
        ps.map (fun p => p.exchanges.any fun x => x.request.isLoud) = [false, true, true] := by
  have hsink : ∀ sc ∈ threeCalls, sc.1.sink = .recorded := by
    simp [threeCalls, Service.recording]
  obtain ⟨-, h, -⟩ := calls_observed_once
    (.refusing (· matches .list _) (.missingTable "dead_letters")) (.new .fresh) hsink
  have hstore := h.success "store" (by simp [operations])
  have hsuccess := h.success "reprocess" (by simp [operations])
  have herror := h.error "reprocess" (by simp [operations])
  have hkind := h.kind "reprocess" (by simp [operations]) .notFound
  have hlist := h.success "list" (by simp [operations])
  refine ⟨hsink, _, _, rfl, hstore.trans ?_, hsuccess.trans ?_, herror.trans ?_, hkind.trans ?_,
    hlist.trans ?_, ?_⟩ <;> decide +kernel

end Service

end DeadLetters
