import DeadLetters.Proofs.Republishing

/-!
# Handling uploads

An upload that passes the check is written down, if its size fits the store; if it does not, the
upload is given up at once.  The check that comes before publishing is the one that comes before
writing, so what is published again is processed whenever its size fits.

    the router of the content topics hands uploads to their handler          (find?_contents)
    it processes an upload exactly if its size fits the store             (run_deliver_iff)
    what may be published is processed exactly if its size fits         (published_processed)
-/

namespace DeadLetters

open Program

variable {env : Surroundings} {w : World} {service : Service} {limits : Limits}

/-! ## Registering handlers -/

namespace Router

theorem run_register (r : Router) (h : Handler) : ∃ w', w.run env (r.register h) =
    (some { r with handlers := r.handlers.insert h.topic h.handle }, w') := by
  unfold register
  cases (r.handlers.find? h.topic).isSome <;> exact ⟨_, rfl⟩

/-- Handlers are registered in order, so that the last one of a topic counts. -/
theorem run_registerAll (hs : List Handler) (r : Router) : ∃ w', w.run env (registerAll hs r) =
    (some { r with handlers := hs.foldl (fun d h => d.insert h.topic h.handle) r.handlers },
      w') := by
  induction hs generalizing r w with
  | nil => exact ⟨w, rfl⟩
  | cons h hs ih =>
    obtain ⟨w₁, h₁⟩ : ∃ w', w.run env (r.register h) = _ := run_register r h
    obtain ⟨w₂, h₂⟩ := @ih w₁ { r with handlers := r.handlers.insert h.topic h.handle }
    exact ⟨w₂, (World.run_bind_of h₁).trans h₂⟩

/-- A router that has registered the handlers of the content topics hands uploads to theirs. -/
theorem find?_contents {sink : Sink} {ackTimeout : Nat} {writer : Topic.Writer} {r : Router}
    (h : (w.run env (registerAll (Topic.handlers writer service limits)
      (empty sink ackTimeout))).1 = some r) :
    r.handlers.find? Topic.Upload.topic =
      some (Handler.handleWith (Topic.Upload.processor writer) service limits) := by
  obtain ⟨w', hrun⟩ : ∃ w', w.run env _ = _ :=
    run_registerAll (Topic.handlers writer service limits) (empty sink ackTimeout)
  rw [hrun] at h
  rw [← Option.some.inj h]
  refine (Dictionary.find?_insert _ _ _ _).trans ?_
  refine (if_neg (show Topic.Upload.topic ≠ Topic.Enrichment.topic by decide)).trans ?_
  exact (Dictionary.find?_insert _ _ _ _).trans (if_pos rfl)

end Router

/-! ## Processed messages, and failed ones -/

namespace Handler

variable {topic : String} {m : Message String} {f : Failure}

section Fits

variable {β : Type} {p : Processor β} {b : β} {w' : World}

theorem run_of_processed (hb : p.schema.parse m.body = .ok b)
    (h : w.run env (p.process (m.withBody b)) = (some (.ok ()), w')) :
    w.run env (handleWith p service limits m) = (some .processed, w') := by
  unfold handleWith
  rw [hb]
  exact World.run_bind_of (World.run_within_of h)

theorem run_of_failed (hb : p.schema.parse m.body = .ok b)
    (h : w.run env (p.process (m.withBody b)) = (some (.error f), w')) :
    w.run env (handleWith p service limits m) =
      w'.run env (afterFailure service limits p.topic m f) := by
  unfold handleWith
  rw [hb]
  exact World.run_bind_of (World.run_within_of h)

end Fits

theorem AfterFailure.ne_processed {t : List Exchange} {d : Disposition}
    (h : AfterFailure limits topic m f t d) : d ≠ .processed := by
  rintro rfl
  cases h

/-- A failed message is not processed, whatever else becomes of it. -/
theorem run_afterFailure (w : World) : ∃ d,
    (w.run env (afterFailure service limits topic m f)).1 = some d ∧ d ≠ .processed := by
  obtain ⟨d, hd⟩ := World.exists_result (ends_afterFailure f) w
  obtain ⟨t, hg, -⟩ := @World.run_goes _ env 0 w (afterFailure service limits topic m f)
  rw [hd] at hg
  exact ⟨d, hd, (afterFailure_after hg).ne_processed⟩

end Handler

/-! ## Writing uploads down -/

/-- Every write of content is taken. -/
structure Writing (env : Surroundings) (s : Store) : Prop where
  accepts : ∀ n c, env.store n (.putContent c) = .accepts
  closed : s.closed = false
  table : s.contents.isSome = true

theorem Writing.answer_putContent {s : Store} (h : Writing env s) (c : Content) :
    (s.answer (.putContent c)).1 = .ok () := by
  obtain ⟨cs, hcs⟩ := Option.isSome_iff_exists.1 h.table
  obtain ⟨s', hs⟩ : ∃ s', s.putContent c = .ok ((), s') := by
    rw [Store.putContent, Store.withContents, hcs]
    exact ⟨_, rfl⟩
  exact congrArg Prod.fst (Store.answer_eq_ok_iff (q := .putContent c).2 ⟨h.closed, hs⟩)

namespace Topic

def Upload.Fits (u : Upload) : Prop := u.sizeBytes.toNat < UInt64.size / 2

instance (u : Upload) : Decidable u.Fits := inferInstanceAs (Decidable (_ < _))

theorem Writer.contentOf_cases (u : Upload) (now : Int64) :
    (u.Fits ∧ ∃ c, contentOf u now = .ok c) ∨
      ¬ u.Fits ∧ ∃ detail, contentOf u now = .error (.validation detail) := by
  unfold contentOf
  by_cases h : u.sizeBytes.toNat < UInt64.size / 2
  · rw [if_pos h]
    exact .inl ⟨h, _, rfl⟩
  · rw [if_neg h]
    exact .inr ⟨h, _, rfl⟩

/-- An upload is written down, or its size is refused. -/
theorem Writer.run_recordUpload (h : Writing env w.store) (u : Upload) :
    ∃ w', u.Fits ∧ w.run env (store.recordUpload u) = (some (.ok ()), w') ∨
      ¬ u.Fits ∧ ∃ detail,
        w.run env (store.recordUpload u) = (some (.error (.validation detail)), w') := by
  have hclock : w.run env clock = (some (env.clock w.steps), (w.answer env .clock).2) := rfl
  rw [show w.run env (store.recordUpload u) = _ from World.run_bind_of hclock]
  rcases contentOf_cases u (env.clock w.steps) with ⟨hu, c, hc⟩ | ⟨hu, detail, hc⟩
  · rw [hc]
    have hquery := World.run_query_of (w := (w.answer env .clock).2) (h.accepts _ c)
    rw [show (w.answer env .clock).2.store = w.store from rfl, h.answer_putContent c] at hquery
    exact ⟨_, .inl ⟨hu, World.run_bind_of hquery⟩⟩
  · rw [hc]
    exact ⟨_, .inr ⟨hu, detail, rfl⟩⟩

/-- A message with an upload is processed exactly if the size fits, at whichever attempt. -/
theorem Upload.run_handler_iff (service : Service) (limits : Limits) (h : Writing env w.store)
    {m : Message String} {u : Upload} (hm : schema.parse m.body = .ok u) :
    ∃ d, (w.run env (Handler.handleWith (processor .store) service limits m)).1 = some d ∧
      (d = .processed ↔ u.Fits) := by
  obtain ⟨w', ⟨hu, hrun⟩ | ⟨hu, detail, hrun⟩⟩ := Writer.run_recordUpload h u
  · refine ⟨.processed, ?_, iff_of_true rfl hu⟩
    exact congrArg Prod.fst (Handler.run_of_processed hm (World.run_bind_of hrun))
  · obtain ⟨d, hd, hne⟩ : ∃ d, (w'.run env (Handler.afterFailure service limits topic m
        (.validation detail))).1 = some d ∧ d ≠ .processed := Handler.run_afterFailure w'
    refine ⟨d, ?_, iff_of_false hne hu⟩
    rw [Handler.run_of_failed hm (World.run_bind_of hrun)]
    exact hd

/-- The router of the content topics processes an upload exactly if its size fits. -/
theorem Upload.run_deliver_iff {env₀ : Surroundings} {w₀ : World} {sink : Sink} {ackTimeout : Nat}
    {r : Router} (hr : (w₀.run env₀ (Router.registerAll (handlers .store service limits)
      (Router.empty sink ackTimeout))).1 = some r) (h : Writing env w.store)
    {m : Message String} {u : Upload} (hm : schema.parse m.body = .ok u) :
    ∃ o, (w.run env (r.deliver topic m)).1 = some o ∧
      (o.disposition = .processed ↔ u.Fits) := by
  obtain ⟨d, hd, hiff⟩ := run_handler_iff service limits h hm
  rw [Router.deliver_of_some (Router.find?_contents hr), World.run_bind_of (Prod.ext hd rfl)]
  obtain ⟨acked, hacked⟩ := World.exists_result (Router.ends_settle d) _
  rw [World.run_bind_of (Prod.ext hacked rfl)]
  exact ⟨_, rfl, hiff⟩

/-- What is published again is processed exactly if its size fits the store, at whichever
attempt. -/
theorem published_processed {env₀ : Surroundings} {w₀ : World} {sink : Sink} {ackTimeout : Nat}
    {r : Router} {payload : Json.Value} {b : String}
    (hb : Replay.standard.prepare Upload.topic payload = some (.ok b))
    (hr : (w₀.run env₀ (Router.registerAll (handlers .store service limits)
      (Router.empty sink ackTimeout))).1 = some r) (h : Writing env w.store) :
    ∃ u, Upload.schema.parse b = .ok u ∧ ∀ m : Message String, m.body = b →
      ∃ o, (w.run env (r.deliver Upload.topic m)).1 = some o ∧
        (o.disposition = .processed ↔ u.Fits) := by
  obtain ⟨-, u, hu⟩ := Replay.prepare_standard_eq_ok_iff.1 hb
  refine ⟨u, hu, ?_⟩
  rintro m rfl
  exact Upload.run_deliver_iff hr h hu

/-- An upload that fits is published again and processed, at its seventh attempt too. -/
theorem published_processed_sample :
    ∃ r o, Replay.standard.prepare Upload.topic (Upload.sample 1) =
        some (.ok (Upload.sample 1).text) ∧
      ((World.new .fresh).run Router.calm (Router.registerAll
        (handlers .store (.ofConfig {}) (.ofConfig {})) (Router.empty .logged 30))).1 = some r ∧
      ((World.new .fresh).run Router.calm
        (r.deliver Upload.topic (.new "m" 7 (Upload.sample 1).text))).1 = some o ∧
      o.disposition = .processed := by
  have hread : Upload.schema.parse (Upload.sample 1).text = .ok ⟨"c", "b", "k", 1, "a/b", 1⟩ := by
    decide +kernel
  have hprepared : Replay.standard.prepare Upload.topic (Upload.sample 1) =
      some (.ok (Upload.sample 1).text) :=
    Replay.prepare_standard_eq_ok_iff.2 ⟨rfl, _, hread⟩
  obtain ⟨r, hr⟩ : ∃ r, ((World.new .fresh).run Router.calm (Router.registerAll
      (handlers .store (.ofConfig {}) (.ofConfig {})) (Router.empty .logged 30))).1 = some r :=
    ⟨_, rfl⟩
  have hwriting : Writing Router.calm (World.new .fresh).store := ⟨fun _ _ => rfl, rfl, rfl⟩
  obtain ⟨u, hu, hm⟩ := published_processed hprepared hr hwriting
  obtain rfl : (⟨"c", "b", "k", 1, "a/b", 1⟩ : Upload) = u := Except.ok.inj (hread.symm.trans hu)
  obtain ⟨o, ho, hiff⟩ := hm (.new "m" 7 (Upload.sample 1).text) rfl
  exact ⟨r, o, hprepared, hr, ho, hiff.2 (by decide)⟩

/-- An upload whose size does not fit is published again, and given up at once. -/
theorem oversized_given_up :
    ∃ r, Replay.standard.prepare Upload.topic (Upload.sample 9223372036854775808) =
        some (.ok (Upload.sample 9223372036854775808).text) ∧
      ((World.new .fresh).run Router.calm (Router.registerAll
        (handlers .store (.ofConfig {}) (.ofConfig {})) (Router.empty .logged 30))).1 = some r ∧
      Writing Router.calm .fresh ∧
      ((World.new .fresh).run Router.calm (r.deliver Upload.topic
        (.new "m" 1 (Upload.sample 9223372036854775808).text))).1.map (fun o =>
          o.disposition matches .deadLettered _ .validation) = some true := by
  have hread : Upload.schema.parse (Upload.sample 9223372036854775808).text =
      .ok ⟨"c", "b", "k", 9223372036854775808, "a/b", 1⟩ := by
    decide +kernel
  exact ⟨_, Replay.prepare_standard_eq_ok_iff.2 ⟨rfl, _, hread⟩, rfl,
    ⟨fun _ _ => rfl, rfl, rfl⟩, by decide +kernel⟩

end Topic

end DeadLetters
