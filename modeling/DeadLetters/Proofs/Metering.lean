import DeadLetters.Proofs.Handling

/-!
# What is counted

A counter reads the sum of what the samples of a journal add to it.  A router has counters of its
own, whose names no one else uses: the service and the handlers sample under other names, so that
the counters of a router tell what the router has done.

    tallyOf (t ++ u) reads what tallyOf t reads, and what u adds          (counter_tallyOf_append)
    what is not the router's adds nothing to its counters                   (adds_of_not_routers)
    handlers leave acknowledging and counting to the router              (Handler.leaves_handleWith)
-/

namespace DeadLetters

open Program

/-! ## Sums of samples -/

namespace Sample

/-- What a sample adds to the counter that stands under a key: to the total under its name, and to
the series with its tags. -/
def adds (key : String) : Sample → Nat
  | counter name value tags =>
    (if key = name then value else 0) + if tags ≠ [] ∧ key = seriesKey name tags then value else 0
  | gauge _ _ _ | timing _ _ _ => 0

end Sample

namespace Tally

def total (t : Tally) (key : String) : Nat := (t.counters.find? key).getD 0

theorem getD_bump (counters : Dictionary Nat) (j key : String) (value : Nat) :
    ((bump counters key value).find? j).getD 0 =
      (counters.find? j).getD 0 + if j = key then value else 0 := by
  rw [find?_bump]
  by_cases hj : j = key
  · simp [hj]
  · simp [hj]

theorem total_add (t : Tally) (s : Sample) (key : String) :
    (t.add s).total key = t.total key + s.adds key := by
  cases s with
  | counter name value tags =>
    unfold total add Sample.adds
    by_cases htags : tags = []
    · simp [htags, getD_bump]
    · simp [htags, getD_bump, Nat.add_assoc]
  | gauge | timing => rfl

end Tally

/-- What an exchange adds to the counter under a key. -/
def Exchange.adds (key : String) (x : Exchange) : Nat := (x.sampled?.map (Sample.adds key)).getD 0

def added (key : String) (t : List Exchange) : Nat := t.foldr (fun x n => x.adds key + n) 0

theorem added_cons (key : String) (x : Exchange) (t : List Exchange) :
    added key (x :: t) = x.adds key + added key t := rfl

theorem added_append (key : String) (t u : List Exchange) :
    added key (t ++ u) = added key t + added key u := by
  induction t with
  | nil => exact (Nat.zero_add _).symm
  | cons x t ih => rw [List.cons_append, added_cons, added_cons, ih, Nat.add_assoc]

/-- The order of exchanges does not matter for what they add. -/
theorem added_perm {key : String} {t u : List Exchange} (h : t.Perm u) :
    added key t = added key u := by
  induction h with
  | nil => rfl
  | cons x _ ih => rw [added_cons, added_cons, ih]
  | swap x y t =>
    simp only [added_cons]
    omega
  | trans _ _ ih ih' => exact ih.trans ih'

theorem total_tallyOf_append (t u : List Exchange) (key : String) :
    (tallyOf (t ++ u)).total key = (tallyOf t).total key + added key u := by
  unfold tallyOf
  rw [List.filterMap_append, List.foldl_append]
  generalize (t.filterMap Exchange.sampled?).foldl Tally.add .empty = start
  induction u generalizing start with
  | nil => rfl
  | cons x u ih =>
    cases hs : x.sampled? with
    | none =>
      have hnone : x.adds key = 0 := by simp [Exchange.adds, hs]
      rw [List.filterMap_cons_none hs, ih, added_cons, hnone, Nat.zero_add]
    | some s =>
      have hsome : x.adds key = s.adds key := by simp [Exchange.adds, hs]
      rw [List.filterMap_cons_some hs, List.foldl_cons, ih, added_cons, hsome, Tally.total_add,
        Nat.add_assoc]

/-- Counters are words: they grow by what is added, and start again behind their greatest value. -/
theorem counter_tallyOf_append (t u : List Exchange) (key : String) :
    (tallyOf (t ++ u)).counter key =
      ((tallyOf t).counter key + added key u) % UInt64.size := by
  show (tallyOf (t ++ u)).total key % _ = ((tallyOf t).total key % _ + _) % _
  rw [total_tallyOf_append, Nat.mod_add_mod]

/-! ## The counters of a router -/

/-- What the names of a router's counters start with. -/
def Router.heading : String := "router.message."

/-- Whether a request is an acknowledgement, or a sample for one of a router's counters. -/
def Request.isRouters : Request → Bool
  | acknowledge _ _ => true
  | sample (.counter name _ _) => Router.heading.toList.isPrefixOf name.toList
  | _ => false

theorem toList_seriesKey (name : String) (tags : Tags) :
    ∃ r, (seriesKey name tags).toList = name.toList ++ '\x7b' :: r := by
  refine ⟨(",".intercalate (tags.map fun t => t.1 ++ "=" ++ t.2) ++ "\x7d").toList, ?_⟩
  simp [seriesKey, String.toList_append]

/-- What starts a text before a character that it does not have starts the text. -/
theorem prefix_of_prefix_append_cons {c : Char} {p l r : List Char} (hc : c ∉ p)
    (h : p <+: l ++ c :: r) : p <+: l := by
  obtain ⟨s, hs⟩ := h
  rcases List.append_eq_append_iff.1 hs with ⟨a, rfl, -⟩ | ⟨a, rfl, ha⟩
  · exact List.prefix_append p a
  · cases a with
    | nil => exact ⟨[], (List.append_nil _).trans (List.append_nil l)⟩
    | cons b a =>
      obtain ⟨rfl, -⟩ := List.cons.inj ha
      exact absurd (by simp) hc

/-- Nothing else adds to the counters of a router. -/
theorem adds_of_not_routers {key : String} (hkey : Router.heading.toList <+: key.toList)
    {x : Exchange} (h : x.request.isRouters = false) : x.adds key = 0 := by
  obtain ⟨r, a⟩ := x
  unfold Exchange.adds
  cases r with
  | sample s =>
    cases s with
    | counter name value tags =>
      have hname : ¬ Router.heading.toList <+: name.toList := by
        intro hp
        have hown : Request.isRouters (.sample (.counter name value tags)) = true :=
          List.isPrefixOf_iff_prefix.2 hp
        rw [show Request.isRouters (.sample (.counter name value tags)) = false from h] at hown
        cases hown
      have hplain : key ≠ name := by
        rintro rfl
        exact hname hkey
      have hseries : key ≠ seriesKey name tags := by
        rintro rfl
        obtain ⟨r, hr⟩ := toList_seriesKey name tags
        rw [hr] at hkey
        exact hname (prefix_of_prefix_append_cons (by decide) hkey)
      simp [Exchange.sampled?, Sample.adds, hplain, hseries]
    | gauge | timing => rfl
  | _ => rfl

theorem added_eq_added_only {key : String} (hkey : Router.heading.toList <+: key.toList)
    (t : List Exchange) : added key t = added key (only Request.isRouters t) := by
  induction t with
  | nil => rfl
  | cons x t ih =>
    rw [only_cons, added_cons, ih]
    cases h : x.request.isRouters with
    | false => rw [if_neg (by simp), adds_of_not_routers hkey h, Nat.zero_add]
    | true => rw [if_pos rfl, added_cons]

/-! ## Handlers -/

/-- The program leaves acknowledging, and the counters of the router, to the router. -/
def Program.Leaves {α : Type} (p : Program α) : Prop := p.Asks fun r => r.isRouters = false

/-- The names of the service are not those of a router. -/
theorem Sample.not_routers {s : Sample} (h : s.isService = true) :
    (Request.sample s).isRouters = false := by
  cases s with
  | counter name value tags =>
    have hservice : "dlq.".toList <+: name.toList := List.isPrefixOf_iff_prefix.1 h
    refine Bool.eq_false_iff.2 fun hrouter => ?_
    have hheading : Router.heading.toList <+: name.toList := List.isPrefixOf_iff_prefix.1 hrouter
    rcases List.prefix_or_prefix_of_prefix hservice hheading with hp | hp
    · exact absurd hp (by decide)
    · exact absurd hp (by decide)
  | gauge | timing => rfl

theorem lenient_not_routers :
    LenientTo (fun s => s.isService = true) fun r => r.isRouters = false := by
  intro r hr hs
  cases r with
  | sample s => exact Sample.not_routers (hs s rfl)
  | acknowledge => cases hr
  | _ => rfl

/-- A handler leaves all that to the router if its processor does. -/
theorem Handler.leaves_handleWith {β : Type} {p : Processor β} {service : Service}
    {limits : Limits} {m : Message String} (hp : p.Asks fun r => r.isRouters = false) :
    (handleWith p service limits m).Leaves :=
  asks_handleWith lenient_not_routers (fun _ _ => hp _) (fun _ => rfl) fun _ _ _ => rfl

/-! ## The content topics -/

namespace Topic

theorem leaves_writer : Writer.store.Asks fun r => r.isRouters = false :=
  Writer.asks_store lenient_not_routers (fun _ => rfl) fun _ _ _ => rfl

theorem leaves_upload : (Upload.processor .store).Asks fun r => r.isRouters = false :=
  Upload.asks_processor lenient_not_routers leaves_writer

theorem leaves_enrichment : (Enrichment.processor .store).Asks fun r => r.isRouters = false :=
  Enrichment.asks_processor leaves_writer

end Topic

end DeadLetters
