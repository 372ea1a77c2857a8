import DeadLetters.Proofs.Identity
import DeadLetters.Proofs.Table

/-!
# Operations

All that is done with dead letters is one of a few operations: those of the service, and the
handling of messages.  Whichever run side by side, they share two properties that runs of them are
reasoned from:

    only pending dead letters are inserted, and only purges delete             (Operation.asks)
    an id is inserted only by the operation that has drawn it                  (Operation.issues)
-/

namespace DeadLetters

open Program

/-- Every handler is that of a processor which keeps out of the dead letters. -/
def Router.KeepsOut (r : Router) : Prop :=
  ∀ topic handle, r.handlers.find? topic = some handle →
    ∃ (β : Type) (p : Processor β) (service : Service) (limits : Limits),
      p.KeepsOut ∧ handle = Handler.handleWith p service limits

inductive Operation where
  | store (s : Service) (d : Draft)
  | giveUp (s : Service) (payload : Payload) (f : Failure) (o : Origin)
  | markReprocessed (s : Service) (id result : String)
  | reprocess (s : Service) (id : String)
  | reprocessAll (s : Service) (ids : List String)
  | purge (s : Service) (f : Filter)
  | list (s : Service) (f : Filter)
  | stats (s : Service)
  /-- Handles a message of a batch, beside the others. -/
  | deliver (r : Router) (h : r.KeepsOut) (topic : String) (m : Message String)
  /-- Handles the messages of a batch one after another. -/
  | batch (r : Router) (h : r.KeepsOut) (topic : String) (ms : List (Message String))

namespace Operation

def thread : Operation → Thread
  | store s d => ⟨s.store d⟩
  | giveUp s payload f o => ⟨s.giveUp payload f o⟩
  | markReprocessed s id result => ⟨s.markReprocessed id result⟩
  | reprocess s id => ⟨s.reprocess id⟩
  | reprocessAll s ids => ⟨s.reprocessAll ids⟩
  | purge s f => ⟨s.purge f⟩
  | list s f => ⟨s.list f⟩
  | stats s => ⟨s.stats⟩
  | deliver r _ topic m => ⟨r.deliver topic m⟩
  | batch r _ topic ms => ⟨r.processBatch topic ms⟩

/-- The requests that an operation may make: it inserts pending dead letters, and deletes only as a
purge, by the filter of the purge. -/
structure Allows (o : Operation) (y : Request) : Prop where
  insert : ∀ l, y = .store (.insert l) → l.Pending
  delete : ∀ f, y = .store (.delete f) → ∃ s, o = .purge s f

theorem allows_of_not_touches {o : Operation} {y : Request} (h : y.touchesLetters = false) :
    o.Allows y := by
  constructor
  · rintro l rfl
    simp [Request.touchesLetters] at h
  · rintro f rfl
    simp [Request.touchesLetters] at h

theorem lenient_allows (o : Operation) : Lenient o.Allows :=
  .of_aside fun _ hy => allows_of_not_touches (lenient_not_touches.aside hy)

theorem allows_insert (o : Operation) (d : Draft) (id : String) (now : Int64) :
    o.Allows (.store (.insert (d.letter id now))) := by
  constructor
  · intro l hl
    cases hl
    exact ⟨rfl, rfl, rfl⟩
  · intro f hf
    cases hf

theorem allows_mark (o : Operation) (id result : String) (now : Int64) :
    o.Allows (.store (.mark id result now)) := ⟨nofun, nofun⟩

theorem asks_deliver (o : Operation) {r : Router} (hr : r.KeepsOut) (topic : String)
    (m : Message String) : (r.deliver topic m).Asks o.Allows := by
  refine Router.asks_deliver o.lenient_allows r (fun handle hh => ?_) (allows_of_not_touches rfl)
  obtain ⟨β, p, service, limits, hp, rfl⟩ := hr topic handle hh
  exact Handler.asks_handleWith o.lenient_allows
    (fun _ _ => hp.not_touches.mono (fun _ => allows_of_not_touches) _)
    (fun _ => allows_of_not_touches rfl) fun _ _ _ => o.allows_insert _ _ _

theorem asks (o : Operation) : o.thread.program.Asks o.Allows := by
  have lenient := o.lenient_allows
  have quiet : ∀ {y : Request}, y.touchesLetters = false → o.Allows y := allows_of_not_touches
  cases o with
  | store s d => exact Service.asks_store lenient s fun _ _ _ => allows_insert _ _ _ _
  | giveUp s payload f og =>
    exact Service.asks_giveUp lenient s (fun _ => quiet rfl) fun _ _ => allows_insert _ _ _ _
  | markReprocessed s id result =>
    exact Service.asks_markReprocessed lenient s (fun _ => allows_mark _ _ _ _) (quiet rfl)
  | reprocess s id =>
    exact Service.asks_reprocess lenient s (fun _ _ => quiet rfl) (fun _ _ => allows_mark _ _ _ _)
      (quiet rfl)
  | reprocessAll s ids =>
    exact Service.asks_reprocessAll lenient s ids (fun _ _ => quiet rfl)
      (fun _ _ _ => allows_mark _ _ _ _) fun _ => quiet rfl
  | purge s f =>
    refine Service.asks_purge lenient s (quiet rfl) ⟨nofun, ?_⟩
    rintro g hg
    cases hg
    exact ⟨s, rfl⟩
  | list s f => exact Service.asks_list lenient s (quiet rfl)
  | stats s => exact Service.asks_stats lenient s (fun _ => quiet rfl) (quiet rfl) (quiet rfl)
  | deliver r h topic m => exact asks_deliver _ h topic m
  | batch r h topic ms =>
    exact Router.asks_processBatch lenient r fun m _ => asks_deliver _ h topic m

theorem issues_deliver {r : Router} (hr : r.KeepsOut) (topic : String) (m : Message String) :
    (r.deliver topic m).Issues [] := by
  refine Router.issues_deliver fun handle hh => ?_
  obtain ⟨β, p, service, limits, hp, rfl⟩ := hr topic handle hh
  exact Handler.issues_handleWith hp.not_insert _ _ _

theorem issues (o : Operation) : o.thread.program.Issues [] := by
  have lenient := lenient_not_insert
  cases o with
  | store s d => exact Service.issues_store s d
  | giveUp s payload f og => exact Service.issues_giveUp s payload f og
  | markReprocessed s id result =>
    exact (Service.asks_markReprocessed lenient s (fun _ => rfl) rfl).issues []
  | reprocess s id =>
    exact (Service.asks_reprocess lenient s (fun _ _ => rfl) (fun _ _ => rfl) rfl).issues []
  | reprocessAll s ids =>
    exact (Service.asks_reprocessAll lenient s ids (fun _ _ => rfl) (fun _ _ _ => rfl)
      fun _ => rfl).issues []
  | purge s f => exact (Service.asks_purge lenient s rfl rfl).issues []
  | list s f => exact (Service.asks_list lenient s rfl).issues []
  | stats s => exact (Service.asks_stats lenient s (fun _ => rfl) rfl rfl).issues []
  | deliver r h topic m => exact issues_deliver h topic m
  | batch r h topic ms => exact Router.issues_processBatch fun m _ => issues_deliver h topic m

/-- Each event of operations side by side is one that its operation may make. -/
theorem allows_of_mem {ops : List Operation} {s s' : Store} {t : List Event}
    (h : SideBySide (ops.map thread) s t s') {e : Event} (he : e ∈ t) :
    ∃ o, ops[e.thread]? = some o ∧ o.Allows e.request := by
  obtain ⟨th, hth, hok⟩ := h.exists_thread he
  obtain ⟨o, ho, rfl⟩ : ∃ o, ops[e.thread]? = some o ∧ o.thread = th := by simpa using hth
  exact ⟨o, ho, hok _ o.asks⟩

/-! One operation after another is a case of operations side by side. -/

def sequence (env : Surroundings) (w : World) : List Operation → World
  | [] => w
  | o :: os => sequence env (w.run env o.thread.program).2 os

theorem sequence_history (env : Surroundings) (w : World) (os os' : List Operation) :
    ∃ t u, SideBySide ((os ++ os').map thread) w.store (t ++ u)
        (sequence env w (os ++ os')).store ∧
      History w.store t (sequence env w os).store ∧
      History (sequence env w os).store u (sequence env w (os ++ os')).store := by
  induction os generalizing w with
  | nil =>
    suffices hs : ∃ u, SideBySide (os'.map thread) w.store u (sequence env w os').store by
      obtain ⟨u, hu⟩ := hs
      exact ⟨[], u, hu, .nil _, hu.history⟩
    induction os' generalizing w with
    | nil => exact ⟨[], .idle _ _⟩
    | cons o os' ih =>
      obtain ⟨t, q, hg, hl, -⟩ := @World.run_history _ env 0 w o.thread.program
      obtain ⟨u, hu⟩ := ih (w.run env o.thread.program).2
      exact ⟨_, .cons hl.history hg hu⟩
  | cons o os ih =>
    obtain ⟨t, q, hg, hl, -⟩ := @World.run_history _ env 0 w o.thread.program
    obtain ⟨u, v, huv, hu, hv⟩ := ih (w.run env o.thread.program).2
    have hside := SideBySide.cons hl.history hg huv
    have hsplit : (u ++ v).map (fun e => e.withThread (e.thread + 1)) =
        u.map (fun e => e.withThread (e.thread + 1)) ++
          v.map fun e => e.withThread (e.thread + 1) := List.map_append
    rw [hsplit, ← List.append_assoc] at hside
    refine ⟨_, _, hside, ?_, hv.withThread _⟩
    exact history_append_iff.2 ⟨_, hl.history.withThread _, hu.withThread _⟩

end Operation

end DeadLetters
