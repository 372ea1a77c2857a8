import Mathlib.Data.List.Perm.Subperm
import DeadLetters.Proofs.Ledger
import DeadLetters.Proofs.Replaying
import DeadLetters.Proofs.Statistics

/-!
# Statistics while others write

The four queries of the statistics are separate steps, and other operations can come between them.
All dead letters are counted first and the closed ones next.  So more may be counted as closed than
in all; the dead letters that make the difference have been stored and closed between the two.
Pending are then none, and otherwise what is left.

    the statistics come from four answers                                           (stats_ends)
    a closed dead letter was there, or has been stored and closed since        (origin_of_closed)
    statistics add up, or a dead letter was stored and closed meanwhile            (stats_drift)
-/

namespace DeadLetters

open Program Store

/-! ## The four queries -/

namespace Service

variable {t : List Exchange} {st : Stats}

/-- A query whose answer is looked at. -/
theorem ifAnswered_ends {β : Type} {q : Store.Query}
    {next : q.Answer → Program (Except Failure β)} {r : Except Failure β}
    (h : ((query q).bind fun answer => ifAnswered answer next).Goes t (done r)) :
    (∃ e : Store.Error, r = .error e.failure) ∨
      ∃ a u, t = ⟨.store q, some (.ok a)⟩ :: u ∧ (next a).Goes u (done r) := by
  obtain ⟨answer, u, hu, rfl⟩ := h.query_done
  cases answer with
  | error e => exact .inl ⟨e, done.inj (goes_done_iff.1 hu).2⟩
  | ok a => exact .inr ⟨a, u, rfl, hu⟩

/-- The answers that statistics are made of. -/
def answers (total reprocessed : Nat) (byTopic byError : Dictionary Nat) : List Exchange :=
  [⟨.store (.count {}), some (.ok total)⟩,
    ⟨.store (.count { reprocessed := some true }), some (.ok reprocessed)⟩,
    ⟨.store .countByTopic, some (.ok byTopic)⟩, ⟨.store .countByError, some (.ok byError)⟩]

theorem collect_ends (h : collect.Goes t (done (.ok st))) :
    ∃ total reprocessed byTopic byError, t = answers total reprocessed byTopic byError ∧
      st = .ofCounts total reprocessed byTopic byError := by
  have hnot : ∀ {e : Store.Error}, (Except.ok st : Except Failure Stats) ≠ .error e.failure := nofun
  rcases ifAnswered_ends h with ⟨e, he⟩ | ⟨total, t₁, rfl, h₁⟩
  · exact absurd he hnot
  rcases ifAnswered_ends h₁ with ⟨e, he⟩ | ⟨reprocessed, t₂, rfl, h₂⟩
  · exact absurd he hnot
  rcases ifAnswered_ends h₂ with ⟨e, he⟩ | ⟨byTopic, t₃, rfl, h₃⟩
  · exact absurd he hnot
  rcases ifAnswered_ends h₃ with ⟨e, he⟩ | ⟨byError, t₄, rfl, h₄⟩
  · exact absurd he hnot
  obtain ⟨rfl, hst⟩ := goes_done_iff.1 h₄
  exact ⟨total, reprocessed, byTopic, byError, rfl, Except.ok.inj (done.inj hst)⟩

theorem reportPending_ends {s : Service} {st' : Stats}
    (h : (s.reportPending st').Goes t (done (.ok st))) : st = st' ∧ only Request.isQuery t = [] := by
  have hquiet := h.only_eq_nil (k := Request.isQuery)
    ((lenient_not_query.emit _ _).bind fun _ => asks_done _)
  obtain ⟨_, _, _, -, -, h₂⟩ := goes_bind_done_iff.1 h
  exact ⟨Except.ok.inj (done.inj (goes_done_iff.1 h₂).2), hquiet⟩

/-- Statistics are zero, because the table was missing, or made of four answers. -/
theorem stats_ends {s : Service} (h : s.stats.Goes t (done (.ok st))) :
    st = .zero ∨ ∃ total reprocessed byTopic byError,
      only Request.isQuery t = answers total reprocessed byTopic byError ∧
        st = .ofCounts total reprocessed byTopic byError := by
  rw [stats_eq] at h
  obtain ⟨u, hu, ht⟩ := observed_ends h
  obtain ⟨u₁, u₂, result, rfl, h₁, h₂⟩ := goes_bind_done_iff.1 hu
  rw [ht, only_append]
  cases result with
  | ok st' =>
    obtain ⟨rfl, hquiet⟩ := reportPending_ends h₂
    obtain ⟨total, reprocessed, byTopic, byError, rfl, hst⟩ := collect_ends h₁
    exact .inr ⟨total, reprocessed, byTopic, byError, by rw [hquiet]; rfl, hst⟩
  | error f =>
    rw [concluded] at h₂
    split at h₂
    · obtain ⟨_, u₃, _, -, -, h₃⟩ := goes_bind_done_iff.1 h₂
      exact .inl (reportPending_ends h₃).1
    · obtain ⟨_, _, _, -, -, h₃⟩ := goes_bind_done_iff.1 h₂
      cases (goes_done_iff.1 h₃).2

end Service

/-! ## Between the counts -/

variable {ops : List Operation} {s s' m₁ m₂ : Store} {run past mid rest : List Event}

/-- What is counted is there. -/
theorem rows_of_count {e : Event} {f : Filter} {n : Nat}
    (hr : Reacts e.before e.exchange e.after)
    (hx : e.exchange = ⟨.store (.count f), some (.ok n)⟩) :
    n = e.before.rows.countP (chosen f) := by
  rw [hx] at hr
  obtain ⟨hcount, -⟩ := eq_of_map_eq_ok (answer_eq_ok_iff.1 hr.answer_eq).2
  obtain ⟨rows, hrows, hn⟩ := withRows_eq_ok_iff.1 hcount
  rw [rows_of_letters hrows]
  exact (Except.ok.inj hn).symm

/-- A dead letter that has come since was inserted, and closed if it is closed. -/
structure Came (mid : List Event) (l : DeadLetter) : Prop where
  inserted : l.id ∈ insertedIds mid
  closed : l.reprocessed = true → closings l.id mid ≠ []

/-- Where the dead letters of a later state come from. -/
theorem origin_of_closed (hm : History m₁ mid m₂) (ho : Orderly m₁.rows)
    (hi : ∀ e ∈ mid, ∀ l, e.request = .store (.insert l) → l.Pending) :
    ∀ y ∈ m₂.rows, (∃ x ∈ m₁.rows, x.letter.id = y.letter.id) ∨ Came mid y.letter := by
  suffices hs : Orderly m₂.rows ∧
      ∀ y ∈ m₂.rows, (∃ x ∈ m₁.rows, x.letter.id = y.letter.id) ∨ Came mid y.letter from hs.2
  refine hm.along (P := fun past m => Orderly m.rows ∧
    ∀ y ∈ m.rows, (∃ x ∈ m₁.rows, x.letter.id = y.letter.id) ∨ Came past y.letter)
    ⟨ho, fun y hy => .inl ⟨y, hy, rfl⟩⟩ ?_
  rintro past e rest rfl ⟨hbefore, hpast⟩ hr
  have hpending := hi e (by simp)
  have hafter := hr.moves.orderly hpending hbefore
  refine ⟨hafter, fun y hy => ?_⟩
  rcases hr.moves.origin hy with ⟨x, hx, hc⟩ | hins
  · rcases hpast x hx with ⟨z, hz, hid⟩ | hcame
    · exact .inl ⟨z, hz, hid.trans hc.id.symm⟩
    · refine .inr ⟨?_, fun hy' => ?_⟩
      · rw [insertedIds_append, hc.id]
        exact List.mem_append_left _ hcame.inserted
      · rw [closings_append, hc.id]
        cases hxr : x.letter.reprocessed with
        | true => exact List.append_ne_nil_of_left_ne_nil (hcame.closed hxr) _
        | false =>
          -- pending before and closed behind: this very event closes it
          have hone : e.closing? x.letter.id = some (e.thread, y.letter.recoveryResult) :=
            (closing?_eq_some_iff hafter).2
              ⟨⟨x, hx, Row.isPending_iff.2 ⟨rfl, hxr⟩⟩, rfl, y, hy, isClosed_iff.2 ⟨hc.id, hy'⟩, rfl⟩
          exact List.append_ne_nil_of_right_ne_nil _ (by simp [closings, hone])
  · refine .inr ⟨mem_insertedIds (by simp) hins, fun hy' => ?_⟩
    rw [(hpending _ hins).reprocessed] at hy'
    cases hy'

/-- If nothing has been stored and closed meanwhile, no more are closed later than there were. -/
theorem closed_le_of_not_came (hm : History m₁ mid m₂) (ho : Orderly m₁.rows)
    (hi : ∀ e ∈ mid, ∀ l, e.request = .store (.insert l) → l.Pending) (ho₂ : Orderly m₂.rows)
    (hn : ∀ id ∈ insertedIds mid, (∀ x ∈ m₁.rows, x.letter.id ≠ id) → closings id mid = []) :
    m₂.rows.countP (chosen { reprocessed := some true }) ≤ m₁.rows.length := by
  have hids : (m₁.rows.map fun x => x.letter.id).length = m₁.rows.length := List.length_map _
  rw [List.countP_eq_length_filter, ← List.length_map (fun x : Row => x.letter.id), ← hids]
  refine (List.Nodup.subperm (ho₂.nodup.sublist (List.filter_sublist.map _)) ?_).length_le
  intro id hid
  obtain ⟨y, hy, rfl⟩ := List.mem_map.1 hid
  obtain ⟨hmem, hchosen⟩ := List.mem_filter.1 hy
  have hclosed : y.letter.reprocessed = true := by
    simpa [chosen, Filter.selects, Filter.holds] using hchosen
  by_contra hnot
  have habsent : ∀ x ∈ m₁.rows, x.letter.id ≠ y.letter.id := fun x hx hxy =>
    hnot (List.mem_map.2 ⟨x, hx, hxy⟩)
  rcases origin_of_closed hm ho hi y hmem with ⟨x, hx, hxy⟩ | hcame
  · exact habsent x hx hxy
  · exact hcame.closed hclosed (hn _ hcame.inserted habsent)

/-! ## The equation -/

/-- Among the events of a run there are the two counts of program `i`, and between them the dead
letter with this id was stored and closed. -/
def StoredAndClosedBetween (i : Nat) (run : List Event) (id : String) : Prop :=
  ∃ past e₁ mid e₂ rest, run = past ++ e₁ :: (mid ++ e₂ :: rest) ∧
    (e₁.thread = i ∧ e₁.request = .store (.count {})) ∧
    (e₂.thread = i ∧ e₂.request = .store (.count { reprocessed := some true })) ∧
    (∀ x ∈ e₁.before.rows, x.letter.id ≠ id) ∧ id ∈ insertedIds mid ∧ closings id mid ≠ []

/-- Statistics that are counted while other operations write: as many are pending as the counts
leave, and the counts fit each other, unless a dead letter was stored and closed between them. -/
theorem stats_drift {service : Service} {i : Nat} {st : Stats}
    (h : SideBySide (ops.map Operation.thread) s run s') (h0 : s.rows = [])
    (hg : service.stats.Goes (own i run) (done (.ok st))) :
    (st.pending : Int) = max 0 (st.total - st.reprocessed : Int) ∧
      ((st.reprocessed ≤ st.total ∧ (st.pending : Int) = st.total - st.reprocessed) ∨
        ∃ id, StoredAndClosedBetween i run id) := by
  have htruncated : st.pending = st.total - st.reprocessed := by
    rcases Service.stats_ends hg with rfl | ⟨total, reprocessed, byTopic, byError, -, rfl⟩ <;> rfl
  refine ⟨by omega, ?_⟩
  suffices hs : st.reprocessed ≤ st.total ∨ ∃ id, StoredAndClosedBetween i run id from
    hs.imp_left fun hle => ⟨hle, by omega⟩
  rcases Service.stats_ends hg with rfl | ⟨total, reprocessed, byTopic, byError, hqueries, rfl⟩
  · exact .inl (Nat.le_refl 0)
  obtain ⟨past, e₁, rest₁, rfl, hi₁, h₁, hrest⟩ := exists_of_only_own_eq hqueries
  obtain ⟨mid, e₂, rest, rfl, hi₂, h₂, -⟩ := exists_of_only_own_eq hrest
  obtain ⟨hpast, hr₁, hlater⟩ := h.history.at
  obtain ⟨hmid, hr₂, -⟩ := hlater.at
  have hsame : e₁.after.rows = e₁.before.rows := by
    refine (hr₁.alike ?_).rows
    rw [h₁]
    rfl
  have hordered : ∀ {u v m}, past ++ e₁ :: (mid ++ e₂ :: rest) = u ++ v → History s u m →
      Orderly m.rows := by
    intro u v m hsplit hu
    rw [hsplit] at h
    exact orderly_of_empty h hu h0
  have ho₁ : Orderly e₁.after.rows := hsame ▸ hordered rfl hpast
  have ho₂ : Orderly e₂.before.rows := by
    refine hordered (u := past ++ e₁ :: mid) (v := e₂ :: rest) (by simp) ?_
    exact history_append_iff.2 ⟨_, hpast, .cons hr₁ hmid⟩
  have hpending : ∀ e ∈ mid, ∀ l, e.request = .store (.insert l) → l.Pending := by
    intro e he l hl
    obtain ⟨o, -, ha⟩ := Operation.allows_of_mem h (e := e) (by simp [he])
    exact ha.insert l hl
  by_cases hn : ∀ id ∈ insertedIds mid, (∀ x ∈ e₁.after.rows, x.letter.id ≠ id) →
      closings id mid = []
  · left
    show reprocessed ≤ total
    rw [rows_of_count hr₁ h₁, countP_chosen_all, ← hsame, rows_of_count hr₂ h₂]
    exact closed_le_of_not_came hmid ho₁ hpending ho₂ hn
  · right
    push Not at hn
    obtain ⟨id, hins, habsent, hclosed⟩ := hn
    refine ⟨id, past, e₁, mid, e₂, rest, rfl, ⟨hi₁, ?_⟩, ⟨hi₂, ?_⟩, ?_, hins, hclosed⟩
    · rw [Event.request, h₁]
    · rw [Event.request, h₂]
    · rwa [← hsame]

/-! A dead letter that is stored and closed behind the first count. -/

namespace Service

/-- Statistics, and two operations that come between their counts; only the statistics matter. -/
def overtaken : List (Program (Option Stats)) :=
  [recording.stats.bind fun result => done result.toOption,
    (recording.store .sample).bind fun _ => done none,
    (recording.markReprocessed "3" "done").bind fun _ => done none]

/-- A program whose result is turned into another goes the way of the program. -/
theorem goes_of_turned {α β : Type} {p : Program α} {g : α → β} {t : List Exchange} {q : Program β}
    (h : (p.bind fun a => done (g a)).Goes t q) : ∃ q', p.Goes t q' := by
  rcases goes_bind_iff.1 h with ⟨p', hp, -⟩ | ⟨t₁, t₂, a, rfl, h₁, h₂⟩
  · exact ⟨p', hp⟩
  · rw [(goes_done_iff.1 h₂).1, List.append_nil]
    exact ⟨_, h₁⟩

theorem exists_overtaken :
    ∃ run s' st, SideBySide (List.map Operation.thread [.stats recording, .store recording .sample,
        .markReprocessed recording "3" "done"]) .fresh run s' ∧
      recording.stats.Goes (own 0 run) (done (.ok st)) ∧ st.total = 0 ∧ st.reprocessed = 1 ∧
        st.pending = 0 := by
  let schedule := [0, 1, 2, 0, 0, 0, 0]
  obtain ⟨run, hside, -, hgoes⟩ :=
    @World.interleave_history _ Router.calm schedule overtaken (.new .fresh)
  obtain ⟨q, hq, hfirst⟩ := hgoes 0 _ rfl
  have hresult : ((Program.interleave (World.answer Router.calm) schedule overtaken
      (.new .fresh)).1[0]?.bind result?).map (fun o => o.map fun st : Stats =>
        (st.total, st.reprocessed, st.pending)) = some (some (0, 1, 0)) := by
    decide +kernel
  generalize (Program.interleave (World.answer Router.calm) schedule overtaken
    (.new .fresh)).2.store = s' at hside
  rw [hq, Option.bind_some] at hresult
  obtain ⟨o, ho, hst⟩ := Option.map_eq_some_iff.1 hresult
  obtain ⟨st, rfl, hfigures⟩ := Option.map_eq_some_iff.1 hst
  obtain ⟨htotal, hreprocessed, hpending⟩ := Prod.mk.inj hfigures |>.imp_right Prod.mk.inj
  rw [result?_eq_some_iff.1 ho] at hfirst
  obtain ⟨t₁, t₂, result, ht, h₁, h₂⟩ := goes_bind_done_iff.1 hfirst
  obtain ⟨rfl, hlast⟩ := goes_done_iff.1 h₂
  rw [List.append_nil] at ht
  have hok : result = .ok st := by
    cases result with
    | ok st' => exact congrArg Except.ok (Option.some.inj (done.inj hlast)).symm
    | error f => cases done.inj hlast
  have hthreads : SideBySide (List.map Operation.thread [.stats recording,
      .store recording .sample, .markReprocessed recording "3" "done"]) .fresh run s' := by
    refine ⟨hside.history, hside.thread_lt, fun i th hi => ?_⟩
    match i with
    | 0 =>
      obtain rfl := Option.some.inj hi
      exact ⟨_, ht ▸ h₁⟩
    | 1 =>
      obtain rfl := Option.some.inj hi
      obtain ⟨q, -, hg⟩ := hgoes 1 _ rfl
      exact goes_of_turned hg
    | 2 =>
      obtain rfl := Option.some.inj hi
      obtain ⟨q, -, hg⟩ := hgoes 2 _ rfl
      exact goes_of_turned hg
    | _ + 3 => simp at hi
  exact ⟨run, s', st, hthreads, hok ▸ ht ▸ h₁, htotal, hreprocessed, hpending⟩

end Service

/-- One dead letter is closed, and none are there at all. -/
theorem stats_overtaken :
    ∃ run s' st, SideBySide (List.map Operation.thread [.stats .recording,
        .store .recording .sample, .markReprocessed .recording "3" "done"]) .fresh run s' ∧
      Service.recording.stats.Goes (own 0 run) (done (.ok st)) ∧ st.total < st.reprocessed ∧
        (st.pending : Int) ≠ st.total - st.reprocessed := by
  obtain ⟨run, s', st, h, hg, htotal, hreprocessed, hpending⟩ := Service.exists_overtaken
  refine ⟨run, s', st, h, hg, by omega, ?_⟩
  rw [hpending, htotal, hreprocessed]
  decide

/-- What the counts do not explain is a dead letter that was stored and closed between them. -/
theorem stats_drift_overtaken :
    ∃ run s' st id, SideBySide (List.map Operation.thread [.stats .recording,
        .store .recording .sample, .markReprocessed .recording "3" "done"]) .fresh run s' ∧
      Service.recording.stats.Goes (own 0 run) (done (.ok st)) ∧ st.reprocessed = 1 ∧
        (st.pending : Int) = max 0 (st.total - st.reprocessed : Int) ∧
        StoredAndClosedBetween 0 run id := by
  obtain ⟨run, s', st, h, hg, htotal, hreprocessed, -⟩ := Service.exists_overtaken
  obtain ⟨hmax, ⟨hle, -⟩ | ⟨id, hid⟩⟩ := stats_drift h rfl hg
  · rw [htotal, hreprocessed] at hle
    cases hle
  · exact ⟨run, s', st, id, h, hg, hreprocessed, hmax, hid⟩

end DeadLetters
