import DeadLetters.World

/-!
# Paths of a program

A path is what a program goes through: the requests that it makes, each with the answer that it
gets, and what remains of the program behind them.  No surroundings are fixed; any answer can come.

    (p.bind f).Goes t q  exactly when  p is still running on t, or p ends on a first part of t
      and f goes on from its result                                             (goes_bind_iff)
    p.within.Goes t q    exactly when  p goes on t to something that q waits for
                                                                              (goes_within_iff)

Three properties of a program speak about all of its paths: which requests it makes (`Asks`), how
many of a kind at most (`AtMost`), and that it never gets stuck (`Ends`).  A program that has ended,
with a result or stuck, has become `await o`, and what it did of some kind is `only k t`.
-/

namespace DeadLetters

abbrev Exchange.request (x : Exchange) : Request := x.1

/-- The exchanges with a request of a kind. -/
def only (k : Request → Bool) (t : List Exchange) : List Exchange :=
  t.filter fun x => k x.request

@[simp] theorem only_nil (k : Request → Bool) : only k [] = [] := rfl

theorem only_append (k : Request → Bool) (t u : List Exchange) :
    only k (t ++ u) = only k t ++ only k u := by
  simp [only]

theorem only_cons (k : Request → Bool) (x : Exchange) (t : List Exchange) :
    only k (x :: t) = if k x.request then x :: only k t else only k t := by
  simp [only, List.filter_cons]

theorem mem_only {k : Request → Bool} {t : List Exchange} {x : Exchange} :
    x ∈ only k t ↔ x ∈ t ∧ k x.request = true := by
  simp [only]

/-- What follows a first part without any of the kind comes before all of the kind. -/
theorem mem_of_only_eq_nil {k : Request → Bool} {t₁ t₂ b c : List Exchange} {g x : Exchange}
    (h : t₁ ++ g :: t₂ = b ++ x :: c) (h₁ : only k t₁ = []) (hg : k g.request = false)
    (hx : k x.request = true) : g ∈ b := by
  have hxg : x ≠ g := by
    rintro rfl
    rw [hg] at hx
    cases hx
  rcases List.append_eq_append_iff.1 h with ⟨a, rfl, ha⟩ | ⟨a, rfl, ha⟩
  · cases a with
    | nil => exact absurd (List.cons.inj ha).1.symm hxg
    | cons y a =>
      rw [(List.cons.inj ha).1]
      exact List.mem_append_right _ List.mem_cons_self
  · cases a with
    | nil => exact absurd (List.cons.inj ha).1 hxg
    | cons y a =>
      have hmem : x ∈ only k (b ++ y :: a) := mem_only.2 ⟨by simp [(List.cons.inj ha).1], hx⟩
      rw [h₁] at hmem
      cases hmem

namespace Program

variable {α β : Type}

/-- `p` makes the requests of `t`, gets the answers of `t`, and `q` remains. -/
inductive Goes : Program α → List Exchange → Program α → Prop
  | rest (p : Program α) : Goes p [] p
  | ask {r : Request} {next : r.Answer → Program α} {a : r.Answer} {t : List Exchange}
      {q : Program α} (h : Goes (next a) t q) : Goes (.ask r next) (⟨r, a⟩ :: t) q

/-! ## Going on -/

@[simp] theorem goes_nil_iff {p q : Program α} : p.Goes [] q ↔ q = p := by
  constructor
  · intro h
    cases h
    rfl
  · rintro rfl
    exact .rest _

@[simp] theorem goes_done_iff {a : α} {t : List Exchange} {q : Program α} :
    (done a).Goes t q ↔ t = [] ∧ q = done a := by
  constructor
  · intro h
    cases h
    exact ⟨rfl, rfl⟩
  · rintro ⟨rfl, rfl⟩
    exact .rest _

@[simp] theorem goes_stuck_iff {t : List Exchange} {q : Program α} :
    stuck.Goes t q ↔ t = [] ∧ q = stuck := by
  constructor
  · intro h
    cases h
    exact ⟨rfl, rfl⟩
  · rintro ⟨rfl, rfl⟩
    exact .rest _

theorem goes_ask_iff {r : Request} {next : r.Answer → Program α} {t : List Exchange}
    {q : Program α} :
    (ask r next).Goes t q ↔
      t = [] ∧ q = ask r next ∨ ∃ a u, t = ⟨r, a⟩ :: u ∧ (next a).Goes u q := by
  constructor
  · intro h
    cases h with
    | rest => exact .inl ⟨rfl, rfl⟩
    | ask h => exact .inr ⟨_, _, rfl, h⟩
  · rintro (⟨rfl, rfl⟩ | ⟨a, u, rfl, h⟩)
    · exact .rest _
    · exact .ask h

theorem goes_append_iff {p q : Program α} {t u : List Exchange} :
    p.Goes (t ++ u) q ↔ ∃ m, p.Goes t m ∧ m.Goes u q := by
  constructor
  · intro h
    induction t generalizing p with
    | nil => exact ⟨p, .rest p, h⟩
    | cons x t ih =>
      cases h with
      | ask h =>
        obtain ⟨m, hm, hq⟩ := ih h
        exact ⟨m, .ask hm, hq⟩
  · rintro ⟨m, hm, hq⟩
    induction hm with
    | rest => exact hq
    | ask _ ih => exact .ask (ih hq)

/-- Answers decide the way. -/
theorem Goes.unique {p q q' : Program α} {t : List Exchange} (h : p.Goes t q)
    (h' : p.Goes t q') : q' = q := by
  induction h with
  | rest => exact goes_nil_iff.1 h'
  | ask _ ih =>
    cases h' with
    | ask h' => exact ih h'

theorem goes_bind_iff {p : Program α} {f : α → Program β} {t : List Exchange} {q : Program β} :
    (p.bind f).Goes t q ↔
      (∃ p', p.Goes t p' ∧ q = p'.bind f) ∨
        ∃ t₁ t₂ a, t = t₁ ++ t₂ ∧ p.Goes t₁ (done a) ∧ (f a).Goes t₂ q := by
  constructor
  · intro h
    induction p generalizing t with
    | done a => exact .inr ⟨[], t, a, rfl, .rest _, h⟩
    | stuck =>
      obtain ⟨rfl, rfl⟩ := goes_stuck_iff.1 h
      exact .inl ⟨stuck, .rest _, rfl⟩
    | ask r next ih =>
      rcases goes_ask_iff.1 h with ⟨rfl, rfl⟩ | ⟨a, u, rfl, hn⟩
      · exact .inl ⟨_, .rest _, rfl⟩
      · rcases ih a hn with ⟨p', hp, rfl⟩ | ⟨t₁, t₂, b, rfl, hp, hf⟩
        · exact .inl ⟨p', .ask hp, rfl⟩
        · exact .inr ⟨_, t₂, b, rfl, .ask hp, hf⟩
  · rintro (⟨p', hp, rfl⟩ | ⟨t₁, t₂, a, rfl, hp, hf⟩)
    · induction hp with
      | rest => exact .rest _
      | ask _ ih => exact .ask ih
    · generalize hd : done a = d at hp
      induction hp with
      | rest =>
        subst hd
        exact hf
      | ask _ ih => exact .ask (ih hd)

theorem goes_bind_done_iff {p : Program α} {f : α → Program β} {t : List Exchange} {b : β} :
    (p.bind f).Goes t (done b) ↔
      ∃ t₁ t₂ a, t = t₁ ++ t₂ ∧ p.Goes t₁ (done a) ∧ (f a).Goes t₂ (done b) := by
  rw [goes_bind_iff]
  constructor
  · rintro (⟨p', hp, hq⟩ | h)
    · cases p' with
      | done a => exact ⟨t, [], a, by simp, hp, by rw [hq]; exact .rest _⟩
      | stuck => simp at hq
      | ask r next => simp at hq
    · exact h
  · exact .inr

theorem goes_within_iff {p : Program α} {t : List Exchange} {q : Program (Option α)} :
    p.within.Goes t q ↔ ∃ p', p.Goes t p' ∧ q = p'.within := by
  constructor
  · intro h
    induction p generalizing t with
    | done a =>
      obtain ⟨rfl, rfl⟩ := goes_done_iff.1 h
      exact ⟨_, .rest _, rfl⟩
    | stuck =>
      obtain ⟨rfl, rfl⟩ := goes_done_iff.1 h
      exact ⟨_, .rest _, rfl⟩
    | ask r next ih =>
      rcases goes_ask_iff.1 h with ⟨rfl, rfl⟩ | ⟨a, u, rfl, hn⟩
      · exact ⟨_, .rest _, rfl⟩
      · obtain ⟨p', hp, rfl⟩ := ih a hn
        exact ⟨p', .ask hp, rfl⟩
  · rintro ⟨p', hp, rfl⟩
    induction hp with
    | rest => exact .rest _
    | ask _ ih => exact .ask ih

/-! Programs that have ended: `await o` has a result or is stuck. -/

theorem await_some (a : α) : await (some a) = done a := rfl

@[simp] theorem goes_await_iff {o : Option α} {t : List Exchange} {q : Program α} :
    (await o).Goes t q ↔ t = [] ∧ q = await o := by
  cases o
  · exact goes_stuck_iff
  · exact goes_done_iff

theorem await_injective {o o' : Option α} (h : await o = await o') : o = o' := by
  cases o <;> cases o' <;> simp_all [await]

def result? : Program α → Option α
  | done a => some a
  | _ => none

theorem result?_eq_some_iff {p : Program α} {a : α} : p.result? = some a ↔ p = done a := by
  cases p <;> simp [result?]

/-- A program given limited time ends where the program ends. -/
theorem goes_within_done_iff {p : Program α} {t : List Exchange} {o : Option α} :
    p.within.Goes t (done o) ↔ p.Goes t (await o) := by
  rw [goes_within_iff]
  constructor
  · rintro ⟨p', hp, hq⟩
    cases p' with
    | done a =>
      rw [within, done.injEq] at hq
      rwa [hq]
    | stuck =>
      rw [within, done.injEq] at hq
      rwa [hq]
    | ask r next => simp [within] at hq
  · intro hp
    refine ⟨_, hp, ?_⟩
    cases o <;> rfl

theorem goes_bind_await_iff {p : Program α} {f : α → Program β} {t : List Exchange}
    {o : Option β} :
    (p.bind f).Goes t (await o) ↔
      o = none ∧ p.Goes t stuck ∨
        ∃ t₁ t₂ a, t = t₁ ++ t₂ ∧ p.Goes t₁ (done a) ∧ (f a).Goes t₂ (await o) := by
  rw [goes_bind_iff]
  constructor
  · rintro (⟨p', hp, hq⟩ | h)
    · cases p' with
      | done a => exact .inr ⟨t, [], a, by simp, hp, by rw [hq]; exact .rest _⟩
      | stuck => exact .inl ⟨await_injective hq, hp⟩
      | ask r next => cases o <;> simp [await] at hq
    · exact .inr h
  · rintro (⟨rfl, hp⟩ | h)
    · exact .inl ⟨_, hp, rfl⟩
    · exact .inr h

theorem goes_ask_await_iff {r : Request} {f : r.Answer → Option α} {t : List Exchange}
    {o : Option α} :
    (ask r fun a => await (f a)).Goes t (await o) ↔ ∃ a, t = [⟨r, a⟩] ∧ f a = o := by
  rw [goes_ask_iff]
  constructor
  · rintro (⟨-, h⟩ | ⟨a, u, rfl, h⟩)
    · cases o <;> simp [await] at h
    · obtain ⟨rfl, hq⟩ := goes_await_iff.1 h
      exact ⟨a, rfl, (await_injective hq).symm⟩
  · rintro ⟨a, rfl, rfl⟩
    exact .inr ⟨a, [], rfl, .rest _⟩

theorem goes_query_await_iff {q : Store.Query} {t : List Exchange}
    {o : Option (Except Store.Error q.Answer)} :
    (query q).Goes t (await o) ↔ t = [⟨.store q, o⟩] :=
  goes_ask_await_iff.trans ⟨fun ⟨_, h, ho⟩ => ho ▸ h, fun h => ⟨o, h, rfl⟩⟩

theorem goes_acknowledge_await_iff {topic : String} {m : Message String} {t : List Exchange}
    {o : Option (Except Transport.Error Unit)} :
    (acknowledge topic m).Goes t (await o) ↔ t = [⟨.acknowledge topic m, o⟩] :=
  goes_ask_await_iff.trans ⟨fun ⟨_, h, ho⟩ => ho ▸ h, fun h => ⟨o, h, rfl⟩⟩

/-! ## Which requests are made -/

/-- All requests on the paths of the program satisfy `ok`. -/
def Asks (ok : Request → Prop) : Program α → Prop
  | done _ => True
  | stuck => True
  | ask r next => ok r ∧ ∀ a, (next a).Asks ok

section Asks

variable {ok ok' : Request → Prop}

@[simp] theorem asks_done (a : α) : (done a).Asks ok := trivial

@[simp] theorem asks_stuck : (stuck : Program α).Asks ok := trivial

@[simp] theorem asks_ask {r : Request} {next : r.Answer → Program α} :
    (ask r next).Asks ok ↔ ok r ∧ ∀ a, (next a).Asks ok := .rfl

@[simp] theorem asks_await (o : Option α) : (await o).Asks ok := by
  cases o <;> trivial

theorem Asks.bind {p : Program α} {f : α → Program β} (hp : p.Asks ok)
    (hf : ∀ a, (f a).Asks ok) : (p.bind f).Asks ok := by
  induction p with
  | done a => exact hf a
  | stuck => trivial
  | ask r next ih => exact ⟨hp.1, fun a => ih a (hp.2 a)⟩

theorem Asks.within {p : Program α} (hp : p.Asks ok) : p.within.Asks ok := by
  induction p with
  | done a => trivial
  | stuck => trivial
  | ask r next ih => exact ⟨hp.1, fun a => ih a (hp.2 a)⟩

theorem Asks.mono {p : Program α} (hp : p.Asks ok) (h : ∀ r, ok r → ok' r) : p.Asks ok' := by
  induction p with
  | done a => trivial
  | stuck => trivial
  | ask r next ih => exact ⟨h r hp.1, fun a => ih a (hp.2 a)⟩

theorem Asks.request {p q : Program α} {t : List Exchange} (hp : p.Asks ok) (h : p.Goes t q) :
    ∀ x ∈ t, ok x.request := by
  induction h with
  | rest => simp
  | ask _ ih =>
    intro x hx
    rcases List.mem_cons.1 hx with rfl | hx
    · exact hp.1
    · exact ih (hp.2 _) x hx

/-! Single requests, and what follows them. -/

@[simp] theorem asks_query_iff {q : Store.Query} : (query q).Asks ok ↔ ok (.store q) := by
  simp [query]

@[simp] theorem asks_send_iff {topic payload : String} :
    (send topic payload).Asks ok ↔ ok (.send topic payload) := by
  simp [send]

@[simp] theorem asks_acknowledge_iff {topic : String} {m : Message String} :
    (acknowledge topic m).Asks ok ↔ ok (.acknowledge topic m) := by
  simp [acknowledge]

@[simp] theorem asks_clock_iff : clock.Asks ok ↔ ok .clock := by
  simp [clock]

@[simp] theorem asks_stopwatch_iff : stopwatch.Asks ok ↔ ok .stopwatch := by
  simp [stopwatch]

@[simp] theorem asks_freshId_iff : freshId.Asks ok ↔ ok .freshId := by
  simp [freshId]

@[simp] theorem asks_log_iff {e : Log.Event} : (log e).Asks ok ↔ ok (.log e) := by
  simp [log]

theorem asks_emit {sink : Sink} {s : Sample} (hs : ok (.sample s)) (hl : ok (.log s.event)) :
    (emit sink s).Asks ok := by
  cases sink
  · exact ⟨hs, fun _ => trivial⟩
  · exact ⟨hl, fun _ => trivial⟩

end Asks

/-! ## Coming to an end -/

/-- No path of the program gets stuck. -/
def Ends : Program α → Prop
  | done _ => True
  | stuck => False
  | ask _ next => ∀ a, (next a).Ends

theorem Ends.bind {p : Program α} {f : α → Program β} (hp : p.Ends) (hf : ∀ a, (f a).Ends) :
    (p.bind f).Ends := by
  induction p with
  | done a => exact hf a
  | stuck => exact hp.elim
  | ask r next ih => exact fun a => ih a (hp a)

theorem ends_within (p : Program α) : p.within.Ends := by
  induction p with
  | done a => trivial
  | stuck => trivial
  | ask r next ih => exact fun a => ih a

theorem ends_clock : clock.Ends := fun _ => trivial

theorem ends_stopwatch : stopwatch.Ends := fun _ => trivial

theorem ends_freshId : freshId.Ends := fun _ => trivial

theorem ends_log (e : Log.Event) : (log e).Ends := fun _ => trivial

theorem ends_emit (sink : Sink) (s : Sample) : (emit sink s).Ends := by
  cases sink
  · exact fun _ => trivial
  · exact ends_log _

theorem Ends.not_stuck {p : Program α} {t : List Exchange} (hp : p.Ends) : ¬ p.Goes t stuck := by
  intro h
  generalize hq : stuck = q at h
  induction h with
  | rest =>
    subst hq
    exact hp
  | ask _ ih => exact ih (hp _) hq

theorem Goes.returned {p : Program α} {b : β} {t : List Exchange} {o : Option β}
    (h : (p.bind fun _ => done b).Goes t (await o)) (he : p.Ends) : o = some b := by
  rcases goes_bind_await_iff.1 h with ⟨-, hs⟩ | ⟨_, _, _, -, -, h₂⟩
  · exact absurd hs he.not_stuck
  · exact await_injective (goes_done_iff.1 h₂).2

/-- Two ways of one program to its end do not part. -/
theorem Goes.ended_unique {p : Program α} {t t' u : List Exchange} {o o' : Option α}
    (h : p.Goes t (await o)) (h' : p.Goes t' (await o')) (ht : t <+: u) (ht' : t' <+: u) :
    t = t' ∧ o = o' := by
  suffices hs : ∀ {t t' : List Exchange} {o o' : Option α}, p.Goes t (await o) →
      p.Goes t' (await o') → t <+: t' → t = t' ∧ o = o' by
    rcases List.prefix_or_prefix_of_prefix ht ht' with hp | hp
    · exact hs h h' hp
    · obtain ⟨rfl, rfl⟩ := hs h' h hp
      exact ⟨rfl, rfl⟩
  rintro t _ o o' h h' ⟨v, rfl⟩
  obtain ⟨m, hm, hv⟩ := goes_append_iff.1 h'
  obtain rfl := h.unique hm
  obtain ⟨rfl, ho⟩ := goes_await_iff.1 hv
  exact ⟨by simp, (await_injective ho).symm⟩

/-! ## Requests of a kind -/

section Only

variable {k : Request → Bool}

theorem Goes.only_eq_nil {p q : Program α} {t : List Exchange} (h : p.Goes t q)
    (hp : p.Asks fun r => k r = false) : only k t = [] := by
  refine List.filter_eq_nil_iff.2 fun x hx => ?_
  simp [hp.request h x hx]

/-- What a first part without requests of the kind leaves to the rest. -/
theorem Goes.after {p : Program α} {f : α → Program β} {t : List Exchange} {o : Option β}
    (h : (p.bind f).Goes t (await o)) (he : p.Ends) (hp : p.Asks fun r => k r = false) :
    ∃ a u, (f a).Goes u (await o) ∧ only k t = only k u := by
  rcases goes_bind_await_iff.1 h with ⟨-, hs⟩ | ⟨t₁, t₂, a, rfl, h₁, h₂⟩
  · exact absurd hs he.not_stuck
  · exact ⟨a, t₂, h₂, by rw [only_append, h₁.only_eq_nil hp, List.nil_append]⟩

/-- What a last part without requests of the kind leaves to the rest. -/
theorem Goes.before {p : Program α} {f : α → Program β} {t : List Exchange} {o : Option β}
    (h : (p.bind f).Goes t (await o)) (hf : ∀ a, (f a).Asks fun r => k r = false) :
    ∃ o' u, p.Goes u (await o') ∧ only k t = only k u ∧
      (o' = none ∧ o = none ∨ ∃ a v, o' = some a ∧ (f a).Goes v (await o)) := by
  rcases goes_bind_await_iff.1 h with ⟨rfl, hs⟩ | ⟨t₁, t₂, a, rfl, h₁, h₂⟩
  · exact ⟨none, t, hs, rfl, .inl ⟨rfl, rfl⟩⟩
  · refine ⟨some a, t₁, h₁, ?_, .inr ⟨a, t₂, rfl, h₂⟩⟩
    rw [only_append, h₂.only_eq_nil (hf a), List.append_nil]

/-- What a first part without requests of the kind leaves to a rest that ends with a result. -/
theorem Goes.after_done {p : Program α} {f : α → Program β} {t : List Exchange} {b : β}
    (h : (p.bind f).Goes t (done b)) (hp : p.Asks fun r => k r = false) :
    ∃ a u, (f a).Goes u (done b) ∧ only k t = only k u := by
  obtain ⟨t₁, t₂, a, rfl, h₁, h₂⟩ := goes_bind_done_iff.1 h
  exact ⟨a, t₂, h₂, by rw [only_append, h₁.only_eq_nil hp, List.nil_append]⟩

/-- A path through a program whose last part makes no requests of the kind. -/
theorem Goes.first {p : Program α} {f : α → Program β} {t : List Exchange} {q : Program β}
    (h : (p.bind f).Goes t q) (hf : ∀ a, (f a).Asks fun r => k r = false) :
    ∃ t₁ t₂ p', t = t₁ ++ t₂ ∧ p.Goes t₁ p' ∧ only k t₂ = [] := by
  rcases goes_bind_iff.1 h with ⟨p', h', -⟩ | ⟨t₁, t₂, a, rfl, h₁, h₂⟩
  · exact ⟨t, [], p', by simp, h', rfl⟩
  · exact ⟨t₁, t₂, _, rfl, h₁, h₂.only_eq_nil (hf a)⟩

/-- A path through a program whose first part makes no requests of the kind. -/
theorem Goes.last {p : Program α} {f : α → Program β} {t : List Exchange} {q : Program β}
    (h : (p.bind f).Goes t q) (hp : p.Asks fun r => k r = false) :
    only k t = [] ∨ ∃ t₁ t₂ a, t = t₁ ++ t₂ ∧ p.Goes t₁ (done a) ∧ only k t₁ = [] ∧
      (f a).Goes t₂ q := by
  rcases goes_bind_iff.1 h with ⟨p', h', -⟩ | ⟨t₁, t₂, a, rfl, h₁, h₂⟩
  · exact .inl (h'.only_eq_nil hp)
  · exact .inr ⟨t₁, t₂, a, rfl, h₁, h₁.only_eq_nil hp, h₂⟩

/-- A query, and what follows on its answer. -/
theorem Goes.query_done {q : Store.Query} {f : Except Store.Error q.Answer → Program β}
    {t : List Exchange} {b : β} (h : ((query q).bind f).Goes t (done b)) :
    ∃ a u, (f a).Goes u (done b) ∧ t = ⟨.store q, some a⟩ :: u := by
  obtain ⟨t₁, t₂, a, rfl, h₁, h₂⟩ := goes_bind_done_iff.1 h
  rw [← await_some, goes_query_await_iff] at h₁
  subst h₁
  exact ⟨a, t₂, h₂, rfl⟩

/-- On no path are there more requests of the kind. -/
def AtMost (k : Request → Bool) (n : Nat) (p : Program α) : Prop :=
  ∀ t q, p.Goes t q → (only k t).length ≤ n

theorem Asks.atMost {p : Program α} (hp : p.Asks fun r => k r = false) (n : Nat) :
    p.AtMost k n := by
  intro t q h
  rw [h.only_eq_nil hp]
  exact Nat.zero_le n

theorem AtMost.bind {m n : Nat} {p : Program α} {f : α → Program β} (hp : p.AtMost k m)
    (hf : ∀ a, (f a).AtMost k n) : (p.bind f).AtMost k (m + n) := by
  intro t q h
  rcases goes_bind_iff.1 h with ⟨p', h', -⟩ | ⟨t₁, t₂, a, rfl, h₁, h₂⟩
  · exact Nat.le_add_right_of_le (hp t p' h')
  · rw [only_append, List.length_append]
    exact Nat.add_le_add (hp _ _ h₁) (hf a _ _ h₂)

theorem atMost_send (topic payload : String) : (send topic payload).AtMost k 1 := by
  intro t q h
  rcases goes_ask_iff.1 h with ⟨rfl, -⟩ | ⟨a, u, rfl, hu⟩
  · exact Nat.zero_le 1
  · obtain ⟨rfl, -⟩ := goes_await_iff.1 hu
    exact List.length_filter_le _ _

end Only

end Program

end DeadLetters
