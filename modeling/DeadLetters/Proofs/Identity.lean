import DeadLetters.Proofs.Footprint

/-!
# Where ids come from

A program that inserts a dead letter has drawn a fresh id for it before, and draws one for each.
What a program inserts is measured against the ids that it has drawn, and against ids that it has
been given.

    p.Issues ids:  the ids inserted on a path, in order, are among ids and the ids drawn on it

    each operation of the service, and each delivery, issues no other ids than it draws
                                                                (issues_giveUp, issues_deliver)
-/

namespace DeadLetters

namespace Exchange

def drawn? : Exchange → Option String
  | ⟨.freshId, id⟩ => some id
  | _ => none

/-- The id of a dead letter that was to be inserted, whether it was or not. -/
def inserted? : Exchange → Option String
  | ⟨.store (.insert l), _⟩ => some l.id
  | _ => none

end Exchange

theorem Exchange.inserted?_eq_none {x : Exchange} (h : x.request.isInsert = false) :
    x.inserted? = none := by
  obtain ⟨r, a⟩ := x
  cases r with
  | store q => cases q <;> first | rfl | simp [Request.isInsert] at h
  | _ => rfl

namespace Program

open Exchange

variable {α β : Type}

/-- On each path of the program, the ids inserted are some of the given ones and those drawn. -/
def Issues (ids : List String) (p : Program α) : Prop :=
  ∀ t q, p.Goes t q → (t.filterMap inserted?).Sublist (ids ++ t.filterMap drawn?)

theorem Goes.inserted_eq_nil {p q : Program α} {t : List Exchange} (h : p.Goes t q)
    (hp : p.Asks fun r => r.isInsert = false) : t.filterMap inserted? = [] := by
  refine List.filterMap_eq_nil_iff.2 fun x hx => ?_
  exact inserted?_eq_none (hp.request h x hx)

theorem Asks.issues {p : Program α} (hp : p.Asks fun r => r.isInsert = false)
    (ids : List String) : p.Issues ids := by
  intro t q h
  rw [h.inserted_eq_nil hp]
  exact List.nil_sublist _

/-- The given ids may be used after a first part that inserts nothing. -/
theorem Issues.after {ids : List String} {p : Program α} {f : α → Program β}
    (hp : p.Asks fun r => r.isInsert = false) (hf : ∀ a, (f a).Issues ids) :
    (p.bind f).Issues ids := by
  intro t q h
  rcases goes_bind_iff.1 h with ⟨p', h', -⟩ | ⟨t₁, t₂, a, rfl, h₁, h₂⟩
  · exact hp.issues ids t p' h'
  · rw [List.filterMap_append, List.filterMap_append, h₁.inserted_eq_nil hp, List.nil_append]
    exact (hf a _ _ h₂).trans ((List.sublist_append_right _ _).append_left ids)

/-- The given ids may be used before a last part that draws its own. -/
theorem Issues.bind {ids : List String} {p : Program α} {f : α → Program β} (hp : p.Issues ids)
    (hf : ∀ a, (f a).Issues []) : (p.bind f).Issues ids := by
  intro t q h
  rcases goes_bind_iff.1 h with ⟨p', h', -⟩ | ⟨t₁, t₂, a, rfl, h₁, h₂⟩
  · exact hp t p' h'
  · rw [List.filterMap_append, List.filterMap_append, ← List.append_assoc]
    exact (hp _ _ h₁).append (hf a _ _ h₂)

theorem Issues.within {ids : List String} {p : Program α} (hp : p.Issues ids) :
    p.within.Issues ids := by
  intro t q h
  obtain ⟨p', h', -⟩ := goes_within_iff.1 h
  exact hp t p' h'

/-- An id that is drawn may be inserted. -/
theorem issues_freshId_bind {f : String → Program α} (hf : ∀ id, (f id).Issues [id]) :
    (freshId.bind f).Issues [] := by
  intro t q h
  rcases goes_ask_iff.1 h with ⟨rfl, -⟩ | ⟨id, u, rfl, hu⟩
  · exact List.nil_sublist _
  · exact hf id u q hu

theorem issues_insert (l : DeadLetter) : (query (.insert l)).Issues [l.id] := by
  intro t q h
  rcases goes_ask_iff.1 h with ⟨rfl, -⟩ | ⟨a, u, rfl, hu⟩
  · exact List.nil_sublist _
  · obtain ⟨rfl, -⟩ := goes_await_iff.1 hu
    exact List.Sublist.refl _

end Program

open Program

namespace Service

theorem issues_store (s : Service) (d : Draft) : (s.store d).Issues [] := by
  refine Issues.after lenient_not_insert.stopwatch fun started => Issues.bind ?_ fun result =>
    Asks.issues ((asks_report lenient_not_insert s _ started result).bind fun _ => asks_done _) []
  split
  · refine issues_freshId_bind fun id => ?_
    have reported : ∀ (answer : Except Store.Error Unit) (complain : Store.Error → Log.Event)
        (e : Log.Event), (orFail answer complain fun _ => (log e).bind fun _ =>
          done (.ok id : Except Failure String)).Issues [] := fun answer complain e =>
      Asks.issues (asks_orFail lenient_not_insert fun _ _ =>
        (lenient_not_insert.log e).bind fun _ => asks_done _) []
    cases hd : d.failedAt with
    | none =>
      refine Issues.after lenient_not_insert.clock fun now => ?_
      exact (issues_insert (d.letter id now)).bind fun answer => reported answer _ _
    | some now => exact (issues_insert (d.letter id now)).bind fun answer => reported answer _ _
  · exact Asks.issues ((lenient_not_insert.log _).bind fun _ => asks_done _) []

theorem issues_giveUp (s : Service) (payload : Payload) (f : Failure) (o : Origin) :
    (s.giveUp payload f o).Issues [] := by
  refine Issues.after lenient_not_insert.clock fun now => ?_
  refine Issues.after (asks_notify lenient_not_insert s _ rfl) fun _ => ?_
  exact issues_store s _

end Service

namespace Handler

theorem issues_giveUp (service : Service) (limits : Limits) (topic : String) (m : Message String)
    (f : Failure) : (giveUp service limits topic m f).Issues [] := by
  refine (Service.issues_giveUp service _ f _).within.bind fun handOff => ?_
  dsimp only
  split
  · exact Asks.issues (asks_done _) []
  · exact Asks.issues ((lenient_not_insert.log _).bind fun _ => asks_done _) []

theorem issues_afterFailure (service : Service) (limits : Limits) (topic : String)
    (m : Message String) (f : Failure) : (afterFailure service limits topic m f).Issues [] := by
  unfold afterFailure
  split
  · exact Issues.after (lenient_not_insert.log _) fun _ => issues_giveUp _ _ _ _ _
  all_goals
    dsimp only
    split
    · exact Issues.after (lenient_not_insert.log _) fun _ => issues_giveUp _ _ _ _ _
    · exact Asks.issues ((lenient_not_insert.log _).bind fun _ => asks_done _) []

/-- The processor must insert nothing itself. -/
theorem issues_handleWith {β : Type} {p : Processor β} (hp : p.Asks fun r => r.isInsert = false)
    (service : Service) (limits : Limits) (m : Message String) :
    (handleWith p service limits m).Issues [] := by
  unfold handleWith
  split
  · exact Issues.after (lenient_not_insert.log _) fun _ => issues_giveUp _ _ _ _ _
  · refine Issues.after (hp _).within fun outcome => ?_
    split
    · exact Asks.issues (asks_done _) []
    · exact issues_afterFailure _ _ _ _ _

end Handler

namespace Router

variable {r : Router} {topic : String}

theorem issues_deliver {m : Message String}
    (hh : ∀ handle, r.handlers.find? topic = some handle → (handle m).Issues []) :
    (r.deliver topic m).Issues [] := by
  have settled : ∀ d, ((r.settle topic m d).bind fun acked =>
      done (Outcome.mk m.id m.attempt d acked)).Issues [] := fun d =>
    Asks.issues (Asks.bind (asks_settle lenient_not_insert r fun _ => rfl) fun _ => asks_done _) []
  cases hr : r.handlers.find? topic with
  | none =>
    rw [deliver_of_none hr]
    exact settled _
  | some handle =>
    rw [deliver_of_some hr]
    exact (hh handle hr).bind settled

theorem issues_deliverAll {ms : List (Message String)}
    (hd : ∀ m ∈ ms, (r.deliver topic m).Issues []) : (r.deliverAll topic ms).Issues [] := by
  induction ms with
  | nil => exact Asks.issues (asks_done _) []
  | cons m ms ih =>
    refine (hd m (by simp)).bind fun o => ?_
    exact (ih fun m' hm => hd m' (by simp [hm])).bind fun os => Asks.issues (asks_done _) []

theorem issues_processBatch {ms : List (Message String)}
    (hd : ∀ m ∈ ms, (r.deliver topic m).Issues []) : (r.processBatch topic ms).Issues [] := by
  rw [processBatch_eq]
  refine Issues.after (asks_opening r topic ms fun e => rfl) fun _ => ?_
  refine (issues_deliverAll hd).bind fun os => ?_
  exact Asks.issues ((lenient_not_insert.log _).bind fun _ => asks_done _) []

end Router

end DeadLetters
