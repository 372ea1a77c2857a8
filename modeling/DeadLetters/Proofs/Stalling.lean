import DeadLetters.Proofs.Republishing

/-!
# Collaborators that stay silent

The store answers, but a transport may not, nor an acknowledger, nor a processor.  Whatever is given
limited time comes to an end all the same.  A replay is not given limited time: reprocessing hangs
exactly if the replay that it comes to is not answered, and then the dead letter stays as it is.

    giving up, handling and batches come to an end                  (endsIn_giveUp, ends_handleWith)
    a call hangs exactly if its replay is not answered               (hangs_reprocess)
    a list of calls hangs exactly at the first that does              (reprocessAll_eq_none_iff)
-/

namespace DeadLetters

open Program

variable {env : Surroundings} {w w' : World}

/-! ## Programs that come to an end, and programs that hang -/

namespace Program

variable {α β : Type}

/-- The program has a result in every world with these surroundings. -/
def EndsIn (env : Surroundings) (p : Program α) : Prop :=
  ∀ w : World, ∃ a, (w.run env p).1 = some a

/-- In this world the program has no result exactly if `c`, and then the store is as before. -/
structure HangsIff (env : Surroundings) (w : World) (p : Program α) (c : Prop) : Prop where
  iff : (w.run env p).1 = none ↔ c
  unchanged : (w.run env p).1 = none → (w.run env p).2.store = w.store

variable {p : Program α} {f : α → Program β} {c : Prop}

theorem Ends.endsIn (hp : p.Ends) : p.EndsIn env := World.exists_result hp

theorem EndsIn.bind (hp : p.EndsIn env) (hf : ∀ a, (f a).EndsIn env) : (p.bind f).EndsIn env := by
  intro w
  obtain ⟨a, ha⟩ := hp w
  rw [World.run_bind_of (Prod.ext ha rfl)]
  exact hf a _

theorem endsIn_query {q : Store.Query} (h : ∀ n, env.store n q ≠ .silent) :
    (query q).EndsIn env := by
  intro w
  rw [World.run_query]
  simp only [World.answer, World.react]
  cases hq : env.store w.steps q with
  | accepts => exact ⟨_, rfl⟩
  | fails e => exact ⟨_, rfl⟩
  | silent => exact absurd hq (h _)

theorem HangsIff.congr {c' : Prop} (hp : p.HangsIff env w c) (h : c ↔ c') :
    p.HangsIff env w c' := ⟨hp.iff.trans h, hp.unchanged⟩

theorem EndsIn.hangsIff (hp : p.EndsIn env) (hc : ¬ c) : p.HangsIff env w c := by
  obtain ⟨a, ha⟩ := hp w
  exact ⟨by simp [ha, hc], by simp [ha]⟩

/-- What comes behind a program does not hang. -/
theorem HangsIff.bind (hp : p.HangsIff env w c) (hf : ∀ a, (f a).EndsIn env) :
    (p.bind f).HangsIff env w c := by
  cases h : (w.run env p).1 with
  | none =>
    have hrun : w.run env (p.bind f) = (none, (w.run env p).2) :=
      World.run_bind_of_none (Prod.ext h rfl)
    exact ⟨by simpa [hrun] using hp.iff.1 h, fun _ => by rw [hrun]; exact hp.unchanged h⟩
  | some a =>
    have hc : ¬ c := fun hc => by simp [hp.iff.2 hc] at h
    obtain ⟨b, hb⟩ := hf a (w.run env p).2
    have hrun : (w.run env (p.bind f)).1 = some b := by
      rw [World.run_bind_of (Prod.ext h rfl), hb]
    exact ⟨by simp [hrun, hc], by simp [hrun]⟩

/-- What comes before does not hang, and leaves the store as it is. -/
theorem HangsIff.after {a : α} (hp : w.run env p = (some a, w')) (hw : w'.store = w.store)
    (hf : (f a).HangsIff env w' c) : (p.bind f).HangsIff env w c := by
  have hrun := World.run_bind_of (f := f) hp
  exact ⟨by rw [hrun]; exact hf.iff, by rw [hrun, ← hw]; exact hf.unchanged⟩

end Program

/-! ## With a store that answers -/

namespace Service

variable {s : Service} {l : DeadLetter} {id : String}

section Answering

variable {α β : Type} (hstore : ∀ n q, env.store n q ≠ .silent)

theorem endsIn_orFail {answer : Except Store.Error α} {complain : Store.Error → Log.Event}
    {next : α → Program (Except Failure β)} (hn : ∀ a, (next a).EndsIn env) :
    (orFail answer complain next).EndsIn env := by
  cases answer with
  | ok a => exact hn a
  | error e => exact Ends.endsIn ((ends_log _).bind fun _ => trivial)

theorem endsIn_logged {e : Log.Event} {a : α} : ((log e).bind fun _ => done a).EndsIn env :=
  Ends.endsIn ((ends_log e).bind fun _ => trivial)

theorem endsIn_reported {operation : String} {started : Nat} {result : Except Failure α} :
    ((s.report operation started result).bind fun _ => done result).EndsIn env :=
  Ends.endsIn ((ends_report s operation started result).bind fun _ => trivial)

include hstore

theorem endsIn_insert (d : Draft) : (insert d).EndsIn env := by
  have after : ∀ id now, (query (.insert (d.letter id now))).EndsIn env :=
    fun id now => endsIn_query fun n => hstore n _
  refine ends_freshId.endsIn.bind fun id => ?_
  cases d.failedAt with
  | none =>
    refine ends_clock.endsIn.bind fun now => (after id now).bind fun answer => ?_
    exact endsIn_orFail fun _ => endsIn_logged
  | some now => exact (after id now).bind fun answer => endsIn_orFail fun _ => endsIn_logged

theorem endsIn_store (d : Draft) : (s.store d).EndsIn env := by
  refine ends_stopwatch.endsIn.bind fun started => EndsIn.bind ?_ fun result => endsIn_reported
  split
  · exact endsIn_insert hstore d
  · exact endsIn_logged

/-- A notification is given limited time. -/
theorem endsIn_giveUp (payload : Payload) (f : Failure) (o : Origin) :
    (s.giveUp payload f o).EndsIn env := by
  refine ends_clock.endsIn.bind fun now => (ends_notify s _).endsIn.bind fun _ => ?_
  exact endsIn_store hstore _

theorem endsIn_firstResult : (firstResult id).EndsIn env := by
  refine (endsIn_query fun n => hstore n _).bind fun answer => endsIn_orFail fun found => ?_
  cases found <;> exact endsIn_logged

theorem endsIn_close (result : String) : (close id result).EndsIn env := by
  refine ends_clock.endsIn.bind fun now => (endsIn_query fun n => hstore n _).bind fun answer => ?_
  refine endsIn_orFail fun (changed : Nat) => ?_
  by_cases hc : 0 < changed
  · rw [if_pos hc]
    exact Ends.endsIn trivial
  · rw [if_neg hc]
    exact endsIn_firstResult hstore

theorem endsIn_closeUnreadable (result : String) : (closeUnreadable id result).EndsIn env := by
  refine (endsIn_close hstore result).bind fun closed => ?_
  split <;> exact Ends.endsIn trivial

/-! ## Replays that are not answered -/

/-- The replay of a dead letter is the request of number `n`, and its topic does not answer. -/
structure StallsOn (env : Surroundings) (n : Nat) (s : Service) (l : DeadLetter) : Prop where
  replayable : ∃ payload body, Json.parseValue l.payload = .ok payload ∧
    s.replay.prepare l.topic payload = some (.ok body)
  bound : (s.binds.map fun binds => binds l.topic).getD false = true
  silent : env.send n l.topic = .silent

omit hstore in
theorem hangs_publish (body : String) : (s.publish l body).HangsIff env w
    ((s.binds.map fun binds => binds l.topic).getD false = true ∧
      env.send w.steps l.topic = .silent) := by
  unfold publish
  cases hbinds : (s.binds.map fun binds => binds l.topic).getD false with
  | false => exact EndsIn.hangsIff endsIn_logged nofun
  | true =>
    have hsend : (send l.topic body).HangsIff env w (env.send w.steps l.topic = .silent) := by
      refine ⟨?_, fun _ => by rw [World.run_send]; rfl⟩
      rw [World.run_send]
      simp only [World.answer, World.react]
      cases env.send w.steps l.topic <;> simp [Reply.answer]
    refine (hsend.bind fun sent => ?_).congr (by simp)
    split
    · exact Ends.endsIn ((ends_emit _ _).bind fun _ => trivial)
    · exact endsIn_logged

omit hstore in
theorem hangs_attempt (payload : Json.Value) : (s.attempt l payload).HangsIff env w
    ((∃ body, s.replay.prepare l.topic payload = some (.ok body)) ∧
      (s.binds.map fun binds => binds l.topic).getD false = true ∧
      env.send w.steps l.topic = .silent) := by
  unfold attempt
  cases s.replay.prepare l.topic payload with
  | none => exact EndsIn.hangsIff (Ends.endsIn trivial) (by simp)
  | some prepared =>
    cases prepared with
    | error reason => exact EndsIn.hangsIff endsIn_logged (by simp)
    | ok body => exact (hangs_publish body).congr (by simp)

theorem hangs_replayAndClose :
    (s.replayAndClose id l).HangsIff env w (s.StallsOn env w.steps l) := by
  unfold replayAndClose
  cases hpayload : Json.parseValue l.payload with
  | error e =>
    refine EndsIn.hangsIff ((ends_log _).endsIn.bind fun _ => endsIn_closeUnreadable hstore _) ?_
    rintro ⟨⟨payload, body, h, -⟩, -, -⟩
    rw [hpayload] at h
    cases h
  | ok payload =>
    refine ((hangs_attempt payload).bind fun result => ?_).congr ⟨?_, ?_⟩
    · refine (endsIn_close hstore result).bind fun closed => ?_
      split
      · exact Ends.endsIn trivial
      · exact endsIn_logged
    · rintro ⟨⟨body, hb⟩, hbound, hsilent⟩
      exact ⟨⟨payload, body, hpayload, hb⟩, hbound, hsilent⟩
    · rintro ⟨⟨payload', body, h, hb⟩, hbound, hsilent⟩
      rw [hpayload] at h
      cases h
      exact ⟨⟨body, hb⟩, hbound, hsilent⟩

/-- Reading a dead letter changes nothing. -/
theorem run_get (w : World) (id : String) : ∃ a w', w.run env (query (.get id)) = (some a, w') ∧
    w'.store = w.store ∧ w'.steps = w.steps + 1 ∧ ∀ found, a = .ok found ↔
      env.store w.steps (.get id) = .accepts ∧ (w.store.answer (.get id)).1 = .ok found := by
  rw [World.run_query]
  simp only [World.answer, World.react]
  cases hq : env.store w.steps (.get id) with
  | accepts =>
    exact ⟨_, _, rfl, Store.answer_snd_of_not_changes _ rfl, rfl, fun _ => (and_iff_right rfl).symm⟩
  | fails e => exact ⟨_, _, rfl, rfl, rfl, by simp⟩
  | silent => exact absurd hq (hstore _ _)

/-- The dead letter that a call finds is pending, and its replay is not answered. -/
def Stalls (env : Surroundings) (w : World) (s : Service) (id : String) : Prop :=
  ∃ l, (env.store (w.steps + 1) (.get id) = .accepts ∧
      (w.store.answer (.get id)).1 = .ok (some l)) ∧
    l.reprocessed = false ∧ s.StallsOn env (w.steps + 2) l

/-- A call hangs exactly if its replay is not answered, and then has changed nothing. -/
theorem hangs_reprocess : (s.reprocess id).HangsIff env w (s.Stalls env w id) := by
  have hwatch : w.run env stopwatch =
      (some (env.stopwatch w.steps), (w.answer env .stopwatch).2) := rfl
  refine HangsIff.after hwatch rfl (HangsIff.bind ?_ fun result => endsIn_reported)
  obtain ⟨a, w₂, hrun, hkept, hsteps, ha⟩ := run_get hstore (w.answer env .stopwatch).2 id
  refine HangsIff.after hrun hkept ?_
  have hstalls : s.Stalls env w id ↔
      ∃ l, a = .ok (some l) ∧ l.reprocessed = false ∧ s.StallsOn env w₂.steps l := by
    rw [hsteps]
    exact exists_congr fun l => and_congr_left' (ha _).symm
  refine HangsIff.congr ?_ hstalls.symm
  rcases a with e | _ | l
  · exact EndsIn.hangsIff endsIn_logged (by simp)
  · exact EndsIn.hangsIff endsIn_logged (by simp)
  · show (if l.reprocessed then _ else s.replayAndClose id l : Program _).HangsIff _ _ _
    cases hl : l.reprocessed with
    | true => exact EndsIn.hangsIff endsIn_logged (by simp [hl])
    | false => exact (hangs_replayAndClose hstore).congr (by simp [hl])

/-- A list of calls hangs exactly at the first of them that does. -/
theorem reprocessAll_eq_none_iff (ids : List String) :
    (w.run env (s.reprocessAll ids)).1 = none ↔
      ∃ us id vs d w', ids = us ++ id :: vs ∧ w.run env (s.reprocessAll us) = (some d, w') ∧
        s.Stalls env w' id := by
  suffices hs : ∀ d₀, (w.run env (reprocessAll.go s ids d₀)).1 = none ↔
      ∃ us id vs d w', ids = us ++ id :: vs ∧
        w.run env (reprocessAll.go s us d₀) = (some d, w') ∧ s.Stalls env w' id from hs .empty
  induction ids generalizing w with
  | nil => intro d₀; simp [reprocessAll.go, World.run, Program.run]
  | cons id ids ih =>
    intro d₀
    have hangs : (s.reprocess id).HangsIff env w _ := hangs_reprocess hstore
    cases hr : (w.run env (s.reprocess id)).1 with
    | none =>
      refine iff_of_true ?_ ⟨[], id, ids, d₀, w, rfl, rfl, hangs.iff.1 hr⟩
      exact congrArg Prod.fst (World.run_bind_of_none (Prod.ext hr rfl))
    | some r =>
      have hrun : ∀ ids, w.run env (reprocessAll.go s (id :: ids) d₀) =
          (w.run env (s.reprocess id)).2.run env
            (reprocessAll.go s ids (d₀.insert id (entry r))) :=
        fun ids => World.run_bind_of (Prod.ext hr rfl)
      rw [hrun, ih]
      constructor
      · rintro ⟨us, id', vs, d, w', rfl, hus, hstalls⟩
        exact ⟨id :: us, id', vs, d, w', rfl, (hrun us).trans hus, hstalls⟩
      · rintro ⟨us, id', vs, d, w', hids, hus, hstalls⟩
        cases us with
        | nil =>
          obtain ⟨rfl, rfl⟩ := List.cons.inj hids
          obtain ⟨-, rfl⟩ := Prod.mk.inj hus
          simp [hangs.iff.2 hstalls] at hr
        | cons u us =>
          obtain ⟨rfl, rfl⟩ := List.cons.inj hids
          exact ⟨us, id', vs, d, w', rfl, (hrun us).symm.trans hus, hstalls⟩

end Answering

end Service

/-! ## Batches -/

/-- Every handler is that of a processor. -/
def Router.Handles (r : Router) : Prop :=
  ∀ topic handle, r.handlers.find? topic = some handle →
    ∃ (β : Type) (p : Processor β) (service : Service) (limits : Limits),
      handle = Handler.handleWith p service limits

/-- A batch comes to an end if the handler of its topic does with every message. -/
theorem Router.ends_processBatch_of {r : Router} {topic : String}
    (h : ∀ handle, r.handlers.find? topic = some handle → ∀ m, (handle m).Ends)
    (ms : List (Message String)) : (r.processBatch topic ms).Ends := by
  refine Router.ends_processBatch fun m _ => ?_
  cases hr : r.handlers.find? topic with
  | none =>
    rw [Router.deliver_of_none hr]
    exact (Router.ends_settle _).bind fun _ => trivial
  | some handle => exact Router.ends_deliver hr (h handle hr m)

theorem Router.Handles.ends_processBatch {r : Router} (h : r.Handles) (topic : String)
    (ms : List (Message String)) : (r.processBatch topic ms).Ends := by
  refine Router.ends_processBatch_of (fun handle hr m => ?_) ms
  obtain ⟨β, p, service, limits, rfl⟩ := h topic handle hr
  exact Handler.ends_handleWith

/-! ## What can hang -/

/-- With a store that answers, giving up, handling a message and handling a batch come to an end,
whoever else stays silent.  Reprocessing hangs exactly if its replay is not answered, and then the
dead letter stays pending, with all the rest of the store. -/
theorem hangs_only_on_replay (hstore : ∀ n q, env.store n q ≠ .silent) (w : World) (s : Service) :
    (∀ payload f o, ∃ a, (w.run env (s.giveUp payload f o)).1 = some a) ∧
      (∀ {β : Type} (p : Processor β) limits m,
        ∃ d, (w.run env (Handler.handleWith p s limits m)).1 = some d) ∧
      (∀ r : Router, r.Handles → ∀ topic ms,
        ∃ report, (w.run env (r.processBatch topic ms)).1 = some report) ∧
      (∀ id, (w.run env (s.reprocess id)).1 = none ↔ s.Stalls env w id) ∧
      (∀ id, s.Stalls env w id → (w.run env (s.reprocess id)).2.store = w.store) ∧
      ∀ ids, (w.run env (s.reprocessAll ids)).1 = none ↔
        ∃ us id vs d w', ids = us ++ id :: vs ∧ w.run env (s.reprocessAll us) = (some d, w') ∧
          s.Stalls env w' id := by
  refine ⟨fun payload f o => Service.endsIn_giveUp hstore payload f o w,
    fun p limits m => Handler.ends_handleWith.endsIn w,
    fun r hr topic ms => (hr.ends_processBatch topic ms).endsIn w,
    fun id => (Service.hangs_reprocess hstore).iff, fun id h => ?_,
    Service.reprocessAll_eq_none_iff hstore⟩
  have hangs : (s.reprocess id).HangsIff env w _ := Service.hangs_reprocess hstore
  exact hangs.unchanged (hangs.iff.2 h)

/-- Surroundings in which nobody answers but the store. -/
def mute : Surroundings :=
  Steady.surroundings ⟨fun _ => .silent, fun _ _ => .silent, 0, toString⟩ false

/-- A world with one pending dead letter, an upload. -/
def pendingUpload : World :=
  ((World.new .fresh).run mute (Service.uploading.store ⟨"m", Topic.Upload.topic,
    "ProcessingError", "no", 1, .capture (Topic.Upload.sample 1).text, some 0⟩)).2

/-- Among the mute, a message is given up, and an upload is not reprocessed. -/
theorem hangs_only_on_replay_mute :
    (∀ n q, mute.store n q ≠ .silent) ∧
      (∃ a, (pendingUpload.run mute (Service.uploading.giveUp (.capture "no") (.validation "no")
        ⟨"m", Topic.Upload.topic, 1⟩)).1 = some a) ∧
      Service.uploading.Stalls mute pendingUpload "1" := by
  have hstore : ∀ n q, mute.store n q ≠ .silent := nofun
  obtain ⟨hgives, -, -, hreprocess, -⟩ := hangs_only_on_replay hstore pendingUpload .uploading
  have hnone : (pendingUpload.run mute (Service.uploading.reprocess "1")).1.isNone = true := by
    decide +kernel
  exact ⟨hstore, hgives _ _ _, (hreprocess "1").1 (Option.isNone_iff_eq_none.1 hnone)⟩

/-- The call hangs although the store answers, and the upload is pending for ever. -/
theorem pendingUpload_hangs :
    (∀ n q, mute.store n q ≠ .silent) ∧
      (pendingUpload.run mute (Service.uploading.reprocess "1")).1.isNone = true ∧
      (pendingUpload.run mute (Service.uploading.reprocess "1")).2.store.rows.map
        (fun x => (x.letter.id, x.letter.reprocessed)) = [("1", false)] :=
  ⟨nofun, by decide +kernel, by decide +kernel⟩

end DeadLetters
