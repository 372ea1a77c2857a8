import DeadLetters.Proofs.Failing
import DeadLetters.Proofs.Republishing

/-!
# Payloads that are read back

A payload is stored as JSON text, which reads as what was captured: a value without doubles as
itself, a text as a string, and bytes as the text that they encode.  Bytes that encode no text are
stored as a placeholder that is no JSON.

So a call that reprocesses a pending dead letter closes it as unreadable exactly if its payload is
bytes that encode no text; any other payload is replayed, with whatever result.
-/

namespace DeadLetters

open Program

/-! ## Stored payloads -/

/-- A text is what its bytes encode, and the only one. -/
theorem fromUTF8?_eq_some_iff {b : ByteArray} {t : String} :
    String.fromUTF8? b = some t ↔ t.toUTF8 = b := by
  unfold String.fromUTF8?
  constructor
  · intro h
    split at h
    · obtain rfl := Option.some.inj h
      rfl
    · cases h
  · rintro rfl
    rw [String.toUTF8_eq_toByteArray, dif_pos t.isValidUTF8]
    rfl

/-- Bytes that encode no text. -/
def NoText (b : ByteArray) : Prop := ∀ t : String, t.toUTF8 ≠ b

theorem fromUTF8?_eq_none_iff {b : ByteArray} : String.fromUTF8? b = none ↔ NoText b := by
  constructor
  · intro h t ht
    rw [fromUTF8?_eq_some_iff.2 ht] at h
    cases h
  · intro h
    cases ht : String.fromUTF8? b with
    | none => rfl
    | some t => exact absurd (fromUTF8?_eq_some_iff.1 ht) (h t)

namespace Payload

open Json

/-- A value without doubles is read back as itself. -/
theorem parse_json {v : Value} (hd : v.depth ≤ depthLimit) (hw : v.WellFormed)
    (hi : v.All Number.Integral) : parseValue (json v).stored = .ok v :=
  parseValue_text ⟨hd, hw, hi.mono fun _ => Number.Integral.fits⟩ hi

theorem stored_bytes (t : String) : (bytes t.toUTF8).stored = (text t).stored := by
  simp only [stored, fromUTF8?_eq_some_iff.2 rfl]

theorem stored_of_noText {b : ByteArray} (h : NoText b) : (bytes b).stored = unserializable := by
  simp only [stored, fromUTF8?_eq_none_iff.2 h]

theorem parse_unserializable : ∃ e, parseValue unserializable = .error e := by
  have hnone : (parseValue unserializable).toOption = none := by decide +kernel
  cases h : parseValue unserializable with
  | error e => exact ⟨e, rfl⟩
  | ok v =>
    rw [h] at hnone
    cases hnone

/-- A payload as it comes to be stored: a body without doubles that is captured, a text, or
bytes. -/
inductive Given : Payload → Prop
  | captured (body : String) (h : ∀ v, parseValue body = .ok v → v.All Number.Integral) :
      Given (.capture body)
  | text (t : String) : Given (.text t)
  | bytes (b : ByteArray) : Given (.bytes b)

/-- What is stored of a payload can be read, unless it was bytes that encode no text. -/
theorem Given.unreadable_iff {p : Payload} (h : p.Given) :
    (∃ e, parseValue p.stored = .error e) ↔ ∃ b, p = .bytes b ∧ NoText b := by
  have readable : ∀ {p : Payload} {v : Value}, parseValue p.stored = .ok v →
      (∀ b, p = .bytes b → ¬ NoText b) →
      ((∃ e, parseValue p.stored = .error e) ↔ ∃ b, p = .bytes b ∧ NoText b) := by
    intro p v hv hb
    rw [hv]
    constructor
    · rintro ⟨e, he⟩
      cases he
    · rintro ⟨b, hp, hn⟩
      exact absurd hn (hb b hp)
  cases h with
  | captured body hi =>
    cases hb : parseValue body with
    | ok v =>
      have hs := sound_parseValue hb
      rw [capture_of_ok hb]
      exact readable (parse_json hs.depth_le hs.wellFormed (hi v hb)) nofun
    | error e =>
      rw [capture_of_error hb]
      exact readable (parseValue_stringText body) nofun
  | text t => exact readable (parseValue_stringText t) nofun
  | bytes b =>
    cases ht : String.fromUTF8? b with
    | some t =>
      obtain rfl := fromUTF8?_eq_some_iff.1 ht
      have hread := (congrArg parseValue (stored_bytes t)).trans (parseValue_stringText t)
      refine readable hread fun b' hb hn => ?_
      obtain rfl := Payload.bytes.inj hb
      exact hn t rfl
    | none =>
      have hn := fromUTF8?_eq_none_iff.1 ht
      rw [stored_of_noText hn]
      exact ⟨fun _ => ⟨b, rfl, hn⟩, fun _ => parse_unserializable⟩

end Payload

/-! ## Closing as unreadable -/

/-- The request closes a dead letter because its payload cannot be read. -/
def Request.Refuses (id : String) (y : Request) : Prop :=
  ∃ reason now, y = .store (.mark id ("Payload deserialization failed: " ++ reason) now)

theorem lenient_not_refuses (id : String) : Lenient fun y => ¬ y.Refuses id := by
  refine .of_aside fun y hy => ?_
  rintro ⟨reason, now, rfl⟩
  cases hy

namespace Service

variable {s : Service} {id result : String} {l : DeadLetter} {t : List Exchange}

/-- A query is asked, whatever comes of it. -/
theorem query_asked {β : Type} {q : Store.Query}
    {f : Except Store.Error q.Answer → Program β} {o : Option β}
    (h : ((query q).bind f).Goes t (await o)) : ∃ x ∈ t, x.request = .store q := by
  rcases goes_bind_await_iff.1 h with ⟨-, hs⟩ | ⟨t₁, t₂, a, rfl, h₁, -⟩
  · rw [(goes_query_await_iff (o := none)).1 hs]
    exact ⟨_, List.mem_cons_self, rfl⟩
  · rw [← await_some, goes_query_await_iff] at h₁
    rw [h₁]
    exact ⟨_, List.mem_cons_self, rfl⟩

/-- Closing asks for an update, whatever comes of it. -/
theorem close_asked {o : Option (Except Failure (String × Bool))}
    (h : (close id result).Goes t (await o)) :
    ∃ x ∈ t, ∃ now, x.request = .store (.mark id result now) := by
  rcases goes_bind_await_iff.1 h with ⟨-, hs⟩ | ⟨t₁, t₂, now, rfl, -, h₂⟩
  · exact absurd hs ends_clock.not_stuck
  · obtain ⟨x, hx, hr⟩ := query_asked h₂
    exact ⟨x, List.mem_append_right _ hx, now, hr⟩

/-- What a replay comes to says nothing of a payload that cannot be read. -/
theorem attempt_says {payload : Json.Value} {r : String}
    (h : (s.attempt l payload).Goes t (done r)) (reason : String) :
    r ≠ "Payload deserialization failed: " ++ reason := by
  have differs : ∀ {start rest : String} {c : Char}, start.toList.head? = some c → c ≠ 'P' →
      start ++ rest ≠ "Payload deserialization failed: " ++ reason := by
    intro start rest c hc hne he
    have hfirst := congrArg (fun t : String => t.toList.head?) he
    simp only [String.toList_append, List.head?_append, hc, Option.some_or] at hfirst
    exact hne (Option.some.inj hfirst)
  have ended : ∀ {p : Program Unit} {r' : String} {t : List Exchange},
      (p.bind fun _ => done r').Goes t (done r) → p.Ends → r = r' := fun h he =>
    Option.some.inj (Goes.returned (o := some r) h he)
  unfold attempt at h
  split at h
  · obtain rfl := done.inj (goes_done_iff.1 h).2
    exact differs rfl (by decide)
  · obtain rfl := ended h (ends_log _)
    exact differs rfl (by decide)
  · unfold publish at h
    split at h
    · obtain rfl := ended h (ends_log _)
      exact differs rfl (by decide)
    · obtain ⟨_, _, sent, -, -, h₂⟩ := goes_bind_done_iff.1 h
      split at h₂
      · obtain rfl := ended h₂ (ends_emit _ _)
        exact differs rfl (by decide)
      · obtain rfl := ended h₂ (ends_log _)
        exact differs rfl (by decide)

/-- A pending dead letter is closed as unreadable exactly if its payload cannot be read. -/
theorem replayAndClose_refuses_iff {o : Option (Except Failure String)}
    (h : (s.replayAndClose id l).Goes t (await o)) :
    (∃ x ∈ t, x.request.Refuses id) ↔ ∃ e, Json.parseValue l.payload = .error e := by
  have lenient := lenient_not_refuses id
  unfold replayAndClose at h
  cases hp : Json.parseValue l.payload with
  | error e =>
    rw [hp] at h
    refine ⟨fun _ => ⟨e, rfl⟩, fun _ => ?_⟩
    rcases goes_bind_await_iff.1 h with ⟨-, hs⟩ | ⟨t₁, t₂, _, rfl, -, h₂⟩
    · exact absurd hs (ends_log _).not_stuck
    have hclose : ∃ x ∈ t₂, ∃ now, x.request =
        .store (.mark id ("Payload deserialization failed: " ++ e.message) now) := by
      rcases goes_bind_await_iff.1 h₂ with ⟨-, hs⟩ | ⟨u₁, u₂, c, rfl, h₃, -⟩
      · exact close_asked (o := none) hs
      · obtain ⟨x, hx, hr⟩ := close_asked (o := some c) h₃
        exact ⟨x, List.mem_append_left _ hx, hr⟩
    obtain ⟨x, hx, now, hr⟩ := hclose
    exact ⟨x, List.mem_append_right _ hx, _, now, hr⟩
  | ok payload =>
    rw [hp] at h
    refine ⟨?_, nofun⟩
    have hattempt : (s.attempt l payload).Asks fun y => ¬ y.Refuses id :=
      asks_attempt lenient s l payload fun _ _ => nofun
    rintro ⟨x, hx, hr⟩
    exfalso
    rcases goes_bind_await_iff.1 h with ⟨-, hs⟩ | ⟨t₁, t₂, r, rfl, h₁, h₂⟩
    · exact hattempt.request hs x hx hr
    rcases List.mem_append.1 hx with hx | hx
    · exact hattempt.request h₁ x hx hr
    -- behind the attempt the dead letter is closed with what the attempt has come to
    · have hclose : (close id r).Asks fun y => ¬ y.Refuses id := by
        refine asks_close lenient (fun now => ?_) nofun
        rintro ⟨reason, now', he⟩
        cases he
        exact attempt_says h₁ reason rfl
      refine (hclose.bind fun c => ?_).request h₂ x hx hr
      split
      · exact asks_done _
      · exact (lenient.log _).bind fun _ => asks_done _

end Service

theorem exists_mem_append_iff {α : Type} {P : α → Prop} {t u : List α} :
    (∃ x ∈ t ++ u, P x) ↔ (∃ x ∈ t, P x) ∨ ∃ x ∈ u, P x := by
  simp only [List.mem_append, or_and_right, exists_or]

/-- The world finds a pending dead letter with a payload, whenever it is asked. -/
structure World.Holds (env : Surroundings) (w : World) (p : Payload) (l : DeadLetter) : Prop where
  payload : l.payload = p.stored
  pending : l.reprocessed = false
  accepts : ∀ n, env.store n (.get l.id) = .accepts
  found : w.store.answer (.get l.id) = (.ok (some l), w.store)

/-- Reprocessing a pending dead letter closes it as unreadable exactly if its payload was bytes that
encode no text. -/
theorem reprocess_refuses_iff (service : Service) {env : Surroundings} {w : World} {p : Payload}
    {l : DeadLetter} (hp : p.Given) (h : w.Holds env p l) :
    ∃ t, (w.run env (service.reprocess l.id)).2.journal = w.journal ++ t ∧
      ((∃ x ∈ t, x.request.Refuses l.id) ↔ ∃ b, p = .bytes b ∧ NoText b) := by
  have lenient := lenient_not_refuses l.id
  obtain ⟨m, started, hm, hrun⟩ := reprocess_reads service h.accepts h.found h.pending
  obtain ⟨t, hg, hl⟩ := @World.run_goes _ env 0 m ((service.replayAndClose l.id l).bind
    fun result => (service.report "reprocess" started result).bind fun _ => done result)
  refine ⟨_, by rw [hrun, hl.journal, hm, List.append_assoc], ?_⟩
  rw [← hp.unreadable_iff, ← h.payload]
  -- neither what has been asked before nor the report behind the replay refuses anything
  have hbefore : ¬ ∃ x ∈ ([⟨.stopwatch, started⟩, ⟨.store (.get l.id), some (.ok (some l))⟩] :
      List Exchange), x.request.Refuses l.id := by
    rintro ⟨x, hx, reason, now, hr⟩
    simp only [List.mem_cons, List.not_mem_nil, or_false] at hx
    rcases hx with rfl | rfl
    · cases hr
    · cases hr
  have hreplay : (∃ x ∈ t.map Event.exchange, x.request.Refuses l.id) ↔
      ∃ e, Json.parseValue l.payload = .error e := by
    rcases goes_bind_await_iff.1 hg with ⟨-, hs⟩ | ⟨t₁, t₂, result, ht, h₁, h₂⟩
    · exact Service.replayAndClose_refuses_iff (o := none) hs
    · have hreport := ((Service.asks_report lenient service "reprocess" started result).bind
        fun _ => asks_done _).request h₂
      rw [ht, exists_mem_append_iff, ← Service.replayAndClose_refuses_iff (o := some result) h₁]
      exact or_iff_left fun ⟨x, hx, hr⟩ => hreport x hx hr
  rw [← hreplay, exists_mem_append_iff]
  exact or_iff_right hbefore

/-- Payloads are read back as what was captured, but for bytes that encode no text; and a call that
reprocesses a pending dead letter closes it as unreadable exactly if its payload was such bytes. -/
theorem payloads_read_back :
    (∀ v : Json.Value, v.depth ≤ 127 → v.WellFormed → v.All Json.Number.Integral →
      Json.parseValue (Payload.json v).stored = .ok v) ∧
    (∀ t : String, Json.parseValue (Payload.text t).stored = .ok (.string t)) ∧
    (∀ t : String, (Payload.bytes t.toUTF8).stored = (Payload.text t).stored) ∧
    (∀ b : ByteArray, NoText b → (Payload.bytes b).stored = Payload.unserializable) ∧
    (∃ e, Json.parseValue Payload.unserializable = .error e) ∧
    ∀ (service : Service) (env : Surroundings) (w : World) (p : Payload) (l : DeadLetter),
      p.Given → w.Holds env p l →
        ∃ t, (w.run env (service.reprocess l.id)).2.journal = w.journal ++ t ∧
          ((∃ x ∈ t, x.request.Refuses l.id) ↔ ∃ b, p = .bytes b ∧ NoText b) :=
  ⟨fun _ => Payload.parse_json, Json.parseValue_stringText, Payload.stored_bytes,
    fun _ => Payload.stored_of_noText, Payload.parse_unserializable,
    fun service _ _ _ _ => reprocess_refuses_iff service⟩

/-- A dead letter is stored with bytes that encode no text, and reprocessing refuses it. -/
theorem payloads_read_back_unreadable :
    ∃ (w : World) (t : List Exchange),
      (w.run Router.calm ((Service.ofConfig {}).reprocess "1")).2.journal = w.journal ++ t ∧
        ∃ x ∈ t, x.request.Refuses "1" := by
  let w := Operation.sequence Router.calm (.new .fresh) [.store (.ofConfig {}) .unreadable]
  have hnone : NoText ⟨#[255]⟩ := fromUTF8?_eq_none_iff.1 (by decide +kernel)
  have hfound : (w.store.answer (.get "1")).1.toOption =
      some (some (Draft.unreadable.letter "1" 0)) := by
    decide +kernel
  have hholds : w.Holds Router.calm (.bytes ⟨#[255]⟩) (Draft.unreadable.letter "1" 0) :=
    ⟨rfl, rfl, fun _ => rfl, Prod.ext (Json.toOption_eq_some_iff.1 hfound)
      (w.store.answer_snd_of_not_changes rfl)⟩
  obtain ⟨t, ht, hiff⟩ :=
    payloads_read_back.2.2.2.2.2 (.ofConfig {}) Router.calm w _ _ (.bytes _) hholds
  exact ⟨w, t, ht, hiff.2 ⟨_, rfl, hnone⟩⟩

end DeadLetters
