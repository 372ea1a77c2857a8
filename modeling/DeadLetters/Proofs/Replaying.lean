import DeadLetters.Proofs.Footprint

/-!
# Reprocessing, as the store sees it

What a call asks of the store, with which answers, and what it returns: the first result of a dead
letter that is closed (`Finds`), closing one (`Closing`), and reprocessing (`Reprocessing`).  A call
publishes once at most, and only after it has read the dead letter as pending.

    (s.reprocess id).Goes t (done r) → Reprocessing id (only isQuery t) r          (reprocess_ends)
    a path of s.reprocess id publishes once at most, behind a reading        (reprocess_sends)
    it publishes what the registry has made of what it has read           (reprocess_publishes)
-/

namespace DeadLetters.Service

open Program

variable {s : Service} {id result : String} {t : List Exchange}

/-! ## Closing -/

theorem only_query (q : Store.Query) (a : (Request.store q).Answer) (t : List Exchange) :
    only Request.isQuery (⟨.store q, a⟩ :: t) = ⟨.store q, a⟩ :: only Request.isQuery t := rfl

/-- A line of the log, and the result. -/
theorem log_returned {β : Type} {e : Log.Event} {b r : β}
    (h : ((log e).bind fun _ => done b).Goes t (done r)) :
    r = b ∧ only Request.isQuery t = [] := by
  obtain ⟨_, _, _, -, -, h₂⟩ := goes_bind_done_iff.1 h
  refine ⟨done.inj (goes_done_iff.1 h₂).2, ?_⟩
  exact h.only_eq_nil ((lenient_not_query.log e).bind fun _ => asks_done _)

/-- Looking for the first result of a dead letter. -/
inductive Finds (id : String) : Exchange → Except Failure (String × Bool) → Prop
  | failed (e : Store.Error) : Finds id ⟨.store (.get id), some (.error e)⟩ (.error e.failure)
  | missing : Finds id ⟨.store (.get id), some (.ok none)⟩ (.error (.notFound id))
  | found (l : DeadLetter) :
      Finds id ⟨.store (.get id), some (.ok (some l))⟩ (.ok (l.recoveryResult.getD "", false))

theorem firstResult_ends {r : Except Failure (String × Bool)}
    (h : (firstResult id).Goes t (done r)) :
    ∃ x, only Request.isQuery t = [x] ∧ Finds id x r := by
  obtain ⟨a, u, hu, rfl⟩ := h.query_done
  refine ⟨⟨.store (.get id), some a⟩, ?_⟩
  rw [only_query]
  rcases a with e | found
  · obtain ⟨rfl, hq⟩ := log_returned hu
    exact ⟨by rw [hq], .failed e⟩
  · cases found with
    | none =>
      obtain ⟨rfl, hq⟩ := log_returned hu
      exact ⟨by rw [hq], .missing⟩
    | some l =>
      obtain ⟨rfl, hq⟩ := log_returned hu
      exact ⟨by rw [hq], .found l⟩

/-- Closing a dead letter with a result: what is asked, and which result counts. -/
inductive Closing (id result : String) :
    List Exchange → Except Failure (String × Bool) → Prop
  | failed (now : Int64) (e : Store.Error) :
      Closing id result [⟨.store (.mark id result now), some (.error e)⟩] (.error e.failure)
  | closed (now : Int64) (n : Nat) (h : 0 < n) :
      Closing id result [⟨.store (.mark id result now), some (.ok n)⟩] (.ok (result, true))
  | beaten (now : Int64) {x : Exchange} {r : Except Failure (String × Bool)} (h : Finds id x r) :
      Closing id result [⟨.store (.mark id result now), some (.ok (0 : Nat))⟩, x] r

/-- Closing fails because of the store, or because nothing is there to close. -/
theorem Closing.kind_ne {u : List Exchange} {f : Failure} (h : Closing id result u (.error f)) :
    f.kind ≠ .validation := by
  cases h with
  | failed => nofun
  | beaten now hf => cases hf <;> nofun

theorem close_ends {r : Except Failure (String × Bool)} (h : (close id result).Goes t (done r)) :
    Closing id result (only Request.isQuery t) r := by
  obtain ⟨now, u, hu, ht⟩ := Goes.after_done (k := Request.isQuery) h lenient_not_query.clock
  obtain ⟨a, v, hv, rfl⟩ := hu.query_done
  rw [ht, only_query]
  rcases a with e | (n : Nat)
  · obtain ⟨rfl, hq⟩ := log_returned hv
    rw [hq]
    exact .failed now e
  · have hn : (if 0 < n then done (.ok (result, true)) else firstResult id).Goes v (done r) := hv
    by_cases hpos : 0 < n
    · rw [if_pos hpos] at hn
      obtain ⟨rfl, hr⟩ := goes_done_iff.1 hn
      obtain rfl := done.inj hr
      exact .closed now n hpos
    · rw [if_neg hpos] at hn
      obtain rfl : n = 0 := Nat.eq_zero_of_not_pos hpos
      obtain ⟨x, hx, hr⟩ := firstResult_ends hn
      rw [hx]
      exact .beaten now hr

/-! ## Reprocessing -/

/-- What a call returns after closing. -/
inductive Returns (id result : String) :
    Except Failure (String × Bool) → Except Failure String → Prop
  | failed (f : Failure) : Returns id result (.error f) (.error f)
  | stored (str : String) (b : Bool) : Returns id result (.ok (str, b)) (.ok str)
  /-- The payload could not be read. -/
  | refused : Returns id result (.ok (result, true)) (.error (.validation result))

/-- Reprocessing: what is asked, and what is returned. -/
inductive Reprocessing (id : String) : List Exchange → Except Failure String → Prop
  | failed (e : Store.Error) :
      Reprocessing id [⟨.store (.get id), some (.error e)⟩] (.error e.failure)
  | missing : Reprocessing id [⟨.store (.get id), some (.ok none)⟩] (.error (.notFound id))
  | closed (l : DeadLetter) (h : l.reprocessed = true) :
      Reprocessing id [⟨.store (.get id), some (.ok (some l))⟩] (.ok (l.recoveryResult.getD ""))
  | replayed (l : DeadLetter) (h : l.reprocessed = false) {result : String} {u : List Exchange}
      {c : Except Failure (String × Bool)} {r : Except Failure String}
      (hc : Closing id result u c) (hr : Returns id result c r) :
      Reprocessing id (⟨.store (.get id), some (.ok (some l))⟩ :: u) r

theorem closeUnreadable_ends {r : Except Failure String}
    (h : (closeUnreadable id result).Goes t (done r)) :
    ∃ c, Closing id result (only Request.isQuery t) c ∧ Returns id result c r := by
  obtain ⟨t₁, t₂, c, rfl, h₁, h₂⟩ := goes_bind_done_iff.1 h
  have hc := close_ends h₁
  refine ⟨c, ?_⟩
  rcases c with f | ⟨str, _ | _⟩
  · obtain ⟨rfl, hr⟩ := goes_done_iff.1 h₂
    obtain rfl := done.inj hr
    rw [List.append_nil]
    exact ⟨hc, .failed f⟩
  · obtain ⟨rfl, hr⟩ := goes_done_iff.1 h₂
    obtain rfl := done.inj hr
    rw [List.append_nil]
    exact ⟨hc, .stored str false⟩
  · obtain ⟨rfl, hr⟩ := goes_done_iff.1 h₂
    obtain rfl := done.inj hr
    rw [List.append_nil]
    refine ⟨hc, ?_⟩
    generalize only Request.isQuery t₁ = u at hc
    cases hc with
    | closed => exact .refused
    | beaten _ hf => cases hf

theorem replayAndClose_ends {l : DeadLetter} {r : Except Failure String}
    (h : (s.replayAndClose id l).Goes t (done r)) :
    ∃ result c, Closing id result (only Request.isQuery t) c ∧ Returns id result c r := by
  unfold replayAndClose at h
  split at h
  · obtain ⟨_, u, hu, ht⟩ := Goes.after_done (k := Request.isQuery) h (lenient_not_query.log _)
    rw [ht]
    exact ⟨_, closeUnreadable_ends hu⟩
  · obtain ⟨result, u, hu, ht⟩ := Goes.after_done (k := Request.isQuery) h
      (asks_attempt lenient_not_query s l _ fun _ _ => rfl)
    obtain ⟨t₁, t₂, c, rfl, h₁, h₂⟩ := goes_bind_done_iff.1 hu
    have hc := close_ends h₁
    refine ⟨result, c, ?_⟩
    rw [ht, only_append]
    rcases c with f | ⟨str, b⟩
    · obtain ⟨rfl, hr⟩ := goes_done_iff.1 h₂
      obtain rfl := done.inj hr
      rw [only_nil, List.append_nil]
      exact ⟨hc, .failed f⟩
    · obtain ⟨rfl, hq⟩ := log_returned h₂
      rw [hq, List.append_nil]
      exact ⟨hc, .stored str b⟩

/-- Reporting an operation changes neither its queries nor its result. -/
theorem observed_ends {α : Type} {operation : String} {body : Program (Except Failure α)}
    {r : Except Failure α} (h : (s.observed operation body).Goes t (done r)) :
    ∃ u, body.Goes u (done r) ∧ only Request.isQuery t = only Request.isQuery u := by
  obtain ⟨started, u, hu, ht⟩ := Goes.after_done (k := Request.isQuery) h
    lenient_not_query.stopwatch
  obtain ⟨u₁, u₂, c, rfl, h₁, h₂⟩ := goes_bind_done_iff.1 hu
  have quiet := h₂.only_eq_nil (k := Request.isQuery)
    ((asks_report lenient_not_query s operation started c).bind fun _ => asks_done _)
  obtain ⟨_, _, _, -, -, h₃⟩ := goes_bind_done_iff.1 h₂
  obtain rfl := done.inj (goes_done_iff.1 h₃).2
  exact ⟨u₁, h₁, by rw [ht, only_append, quiet, List.append_nil]⟩

theorem reprocess_ends {r : Except Failure String} (h : (s.reprocess id).Goes t (done r)) :
    Reprocessing id (only Request.isQuery t) r := by
  obtain ⟨u, hu, ht⟩ := observed_ends h
  obtain ⟨a, v, hv, rfl⟩ := hu.query_done
  rw [ht, only_query]
  rcases a with e | found
  · obtain ⟨rfl, hq⟩ := log_returned hv
    rw [hq]
    exact .failed e
  · cases found with
    | none =>
      obtain ⟨rfl, hq⟩ := log_returned hv
      rw [hq]
      exact .missing
    | some l =>
      have hl : (if l.reprocessed then (log (event .info "reprocess"
          "dead letter already reprocessed" [("id", .quoted id)])).bind fun _ =>
            done (.ok (l.recoveryResult.getD ""))
          else s.replayAndClose id l).Goes v (done r) := hv
      by_cases hc : l.reprocessed = true
      · rw [if_pos hc] at hl
        obtain ⟨rfl, hq⟩ := log_returned hl
        rw [hq]
        exact .closed l hc
      · rw [if_neg hc] at hl
        obtain ⟨result, c, hclosing, hreturns⟩ := replayAndClose_ends hl
        exact .replayed l (by simpa using hc) hclosing hreturns

/-! ## Publishing -/

theorem atMost_publish (l : DeadLetter) (body : String) :
    (s.publish l body).AtMost Request.isSend 1 := by
  unfold publish
  split
  · exact Asks.atMost ((lenient_not_send.log _).bind fun _ => asks_done _) 1
  · refine (atMost_send (k := Request.isSend) l.topic body).bind (n := 0) fun sent => ?_
    split
    · exact Asks.atMost ((lenient_not_send.emit _ _).bind fun _ => asks_done _) 0
    · exact Asks.atMost ((lenient_not_send.log _).bind fun _ => asks_done _) 0

theorem atMost_replayAndClose (l : DeadLetter) :
    (s.replayAndClose id l).AtMost Request.isSend 1 := by
  unfold replayAndClose
  split
  · exact Asks.atMost ((lenient_not_send.log _).bind fun _ =>
      asks_closeUnreadable lenient_not_send (fun _ => rfl) rfl) 1
  · refine AtMost.bind (m := 1) (n := 0) ?_ fun result => Asks.atMost ?_ 0
    · unfold attempt
      split
      · exact Asks.atMost (asks_done _) 1
      · exact Asks.atMost ((lenient_not_send.log _).bind fun _ => asks_done _) 1
      · exact atMost_publish l _
    · refine (asks_close lenient_not_send (fun _ => rfl) rfl).bind fun closed => ?_
      split
      · exact asks_done _
      · exact (lenient_not_send.log _).bind fun _ => asks_done _

/-- A call that publishes has read the dead letter as pending, and replays it. -/
theorem reprocess_replays {q : Program (Except Failure String)} (h : (s.reprocess id).Goes t q) :
    only Request.isSend t = [] ∨
      ∃ t₁ l t₂ t₃ p, t = t₁ ++ ⟨.store (.get id), some (.ok (some l))⟩ :: (t₂ ++ t₃) ∧
        l.reprocessed = false ∧ only Request.isSend t₁ = [] ∧
        (s.replayAndClose id l).Goes t₂ p ∧ only Request.isSend t₃ = [] := by
  rcases Goes.last (k := Request.isSend) h lenient_not_send.stopwatch with
    hnone | ⟨t₁, u, started, rfl, -, h₁, hu⟩
  · exact .inl hnone
  obtain ⟨v, t₃, p', rfl, hv, h₃⟩ := Goes.first (k := Request.isSend) hu fun result =>
    (asks_report lenient_not_send s _ started result).bind fun _ => asks_done _
  rcases Goes.last (k := Request.isSend) hv (asks_query_iff.2 rfl) with
    hnone | ⟨w, t₂, a, rfl, hw, -, h₂⟩
  · left
    rw [only_append, only_append, h₁, hnone, h₃]
    rfl
  rw [← await_some, goes_query_await_iff] at hw
  subst hw
  have quiet : ∀ {α : Type} {p p' : Program α}, p.Goes t₂ p' →
      (p.Asks fun r => r.isSend = false) →
      only Request.isSend (t₁ ++ ([⟨.store (.get id), some a⟩] ++ t₂ ++ t₃)) = [] := by
    intro α p p' hp hq
    rw [only_append, only_append, only_append, h₁, h₃, hp.only_eq_nil hq]
    rfl
  rcases a with e | found
  · exact .inl (quiet h₂ ((lenient_not_send.log _).bind fun _ => asks_done _))
  cases found with
  | none => exact .inl (quiet h₂ ((lenient_not_send.log _).bind fun _ => asks_done _))
  | some l =>
    have hl : (if l.reprocessed then (log (event .info "reprocess"
        "dead letter already reprocessed" [("id", .quoted id)])).bind fun _ =>
          done (.ok (l.recoveryResult.getD ""))
        else s.replayAndClose id l).Goes t₂ p' := h₂
    by_cases hc : l.reprocessed = true
    · rw [if_pos hc] at hl
      exact .inl (quiet hl ((lenient_not_send.log _).bind fun _ => asks_done _))
    · rw [if_neg hc] at hl
      exact .inr ⟨t₁, l, t₂, t₃, p', by simp, by simpa using hc, h₁, hl, h₃⟩

/-- A call that publishes does so once, after it has read the dead letter as pending. -/
theorem reprocess_sends {q : Program (Except Failure String)} (h : (s.reprocess id).Goes t q) :
    only Request.isSend t = [] ∨
      ∃ t₁ l t₂, t = t₁ ++ ⟨.store (.get id), some (.ok (some l))⟩ :: t₂ ∧
        l.reprocessed = false ∧ only Request.isSend t₁ = [] ∧
        (only Request.isSend t₂).length ≤ 1 := by
  rcases reprocess_replays h with hnone | ⟨t₁, l, t₂, t₃, p, rfl, hl, h₁, hp, h₃⟩
  · exact .inl hnone
  · refine .inr ⟨t₁, l, t₂ ++ t₃, rfl, hl, h₁, ?_⟩
    rw [only_append, h₃, List.append_nil]
    exact atMost_replayAndClose l _ _ hp

/-- What a call publishes is what the registry has made of the payload that it has read. -/
theorem reprocess_publishes {q : Program (Except Failure String)} {x : Exchange}
    (h : (s.reprocess id).Goes t q) (hx : x ∈ t) (hsend : x.request.isSend = true) :
    ∃ l payload body, ⟨.store (.get id), some (.ok (some l))⟩ ∈ t ∧
      Json.parseValue l.payload = .ok payload ∧
      s.replay.prepare l.topic payload = some (.ok body) ∧ x.request = .send l.topic body := by
  have hmem : x ∈ only Request.isSend t := mem_only.2 ⟨hx, hsend⟩
  rcases reprocess_replays h with hnone | ⟨t₁, l, t₂, t₃, p, rfl, -, h₁, hp, h₃⟩
  · rw [hnone] at hmem
    cases hmem
  · simp only [only_append, only_cons, h₁, h₃, List.nil_append, List.append_nil] at hmem
    have lenient : Lenient fun y => y.isSend = true →
        ∃ payload body, Json.parseValue l.payload = .ok payload ∧
          s.replay.prepare l.topic payload = some (.ok body) ∧ y = .send l.topic body := by
      refine .of_aside fun y hy hs => ?_
      simp [lenient_not_send.aside hy] at hs
    have replaying := asks_replayAndClose lenient s (l := l)
      (fun payload body hpayload hbody _ => ⟨payload, body, hpayload, hbody, rfl⟩)
      (fun _ _ => nofun) (show Request.isSend (.store (.get id)) = true → _ from nofun)
    obtain ⟨payload, body, hpayload, hbody, hrequest⟩ :=
      replaying.request hp x (mem_only.1 hmem).1 hsend
    exact ⟨l, payload, body, by simp, hpayload, hbody, hrequest⟩

end DeadLetters.Service
