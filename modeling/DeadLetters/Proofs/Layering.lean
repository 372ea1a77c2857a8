import DeadLetters.Config
import DeadLetters.Proofs.Json.Giving

/-!
# Layers of a configuration

The command line, the environment and the file each set some of the fields.  The configuration that
they make has each field from the highest layer that sets it, or else its default, and it is used
only if that is valid.  What a higher layer overrides may be anything that can be read.

    uint32? text = some n  exactly when  text writes n                       (uint32?_eq_some_iff)
    the file makes what it sets, and defaults                                 (parse_eq_ok_iff)
    the layers make a configuration  exactly when  each can be read, and what is highest is valid
                                                                              (effective_layered)
-/

namespace DeadLetters

/-! ## Numerals -/

namespace Text

/-- Writes a number of 32 bits by its ASCII digits, at least one, perhaps behind a plus sign. -/
def Writes (text : String) (n : UInt32) : Prop :=
  ∃ ds : List Char, (text.toList = ds ∨ text.toList = '+' :: ds) ∧ ds ≠ [] ∧
    (∀ c ∈ ds, c.isDigit = true) ∧ Nat.ofDigitChars 10 ds 0 = n.toNat

theorem ofDigits?_eq_some_iff {cs : List Char} {m : Nat} : ofDigits? cs = some m ↔
    cs ≠ [] ∧ (∀ c ∈ cs, c.isDigit = true) ∧ Nat.ofDigitChars 10 cs 0 = m := by
  simp [ofDigits?, and_assoc]

theorem unsigned?_eq_some_iff {cs : List Char} {m : Nat} : unsigned? cs = some m ↔
    ∃ ds, (cs = ds ∨ cs = '+' :: ds) ∧ ofDigits? ds = some m := by
  constructor
  · intro h
    unfold unsigned? at h
    split at h
    · next ds => exact ⟨ds, .inr rfl, h⟩
    · exact ⟨cs, .inl rfl, h⟩
  · rintro ⟨ds, rfl | rfl, h⟩
    · unfold unsigned?
      split
      · next ds =>
        have hplus := (ofDigits?_eq_some_iff.1 h).2.1 '+' List.mem_cons_self
        simp at hplus
      · exact h
    · exact h

theorem uint32?_eq_some_iff {text : String} {n : UInt32} :
    uint32? text = some n ↔ Writes text n := by
  unfold uint32? Writes
  simp only [Option.bind_eq_some_iff, unsigned?_eq_some_iff, ofDigits?_eq_some_iff]
  constructor
  · rintro ⟨m, ⟨ds, htext, hne, hdigits, rfl⟩, hfit⟩
    split at hfit
    · next hlt =>
      refine ⟨ds, htext, hne, hdigits, ?_⟩
      rw [← Option.some.inj hfit]
      exact (UInt32.toNat_ofNat_of_lt' hlt).symm
    · cases hfit
  · rintro ⟨ds, htext, hne, hdigits, hm⟩
    refine ⟨n.toNat, ⟨ds, htext, hne, hdigits, hm⟩, ?_⟩
    rw [if_pos n.toNat_lt]
    simp

end Text

/-! ## What a layer sets -/

/-- The fields that a layer sets. -/
structure Settings where
  databasePath : Option String := none
  autoMigrate : Option Bool := none
  retryCeiling : Option UInt32 := none
  deadLetterTopic : Option String := none
  purgeWarningThreshold : Option UInt64 := none
  operationTimeout : Option UInt64 := none
  topicQueues : Option (Dictionary String) := none

/-- The value of the first layer that sets one, and without such a layer the default. -/
def highest {α : Type} : List (Option α) → α → α
  | [], default => default
  | o :: layers, default => o.getD (highest layers default)

/-- Each field from the highest layer that sets it; the highest layer comes first. -/
def Config.layered (layers : List Settings) : Config where
  databasePath := highest (layers.map (·.databasePath)) "dlq.db"
  autoMigrate := highest (layers.map (·.autoMigrate)) true
  retryCeiling := highest (layers.map (·.retryCeiling)) 3
  deadLetterTopic := highest (layers.map (·.deadLetterTopic)) "dead-letters"
  purgeWarningThreshold := highest (layers.map (·.purgeWarningThreshold)) 100
  operationTimeout := highest (layers.map (·.operationTimeout)) 30
  topicQueues := highest (layers.map (·.topicQueues)) .empty

namespace Config

def settings : Json.Slots record.fields → Settings :=
  fun (databasePath, autoMigrate, retryCeiling, deadLetterTopic, purgeWarningThreshold,
      operationTimeout, topicQueues, _) =>
    ⟨databasePath, autoMigrate, retryCeiling, deadLetterTopic, purgeWarningThreshold,
      operationTimeout, topicQueues⟩

/-- The text of a file can be read, and sets these fields. -/
def Sets (text : String) (s : Settings) : Prop :=
  ∃ slots rest, record.given text.toList = .ok (slots, rest) ∧ Json.skipGap rest = [] ∧
    s = settings slots

theorem default_isSome : ∀ f ∈ record.fields, f.default.isSome = true := by
  intro f hf
  simp only [record, List.mem_cons, List.not_mem_nil, or_false] at hf
  rcases hf with rfl | rfl | rfl | rfl | rfl | rfl | rfl <;> rfl

/-- Slots always make a row, as there are defaults for all. -/
theorem row_slots (slots : Json.Slots record.fields) :
    slots.row = .ok (record.row (layered [settings slots])) := by
  obtain ⟨databasePath, autoMigrate, retryCeiling, deadLetterTopic, purgeWarningThreshold,
    operationTimeout, topicQueues, ⟨⟩⟩ := slots
  refine Json.Slots.row_orElse (Json.Slots.row_orElse (Json.Slots.row_orElse ?_))
  refine Json.Slots.row_orElse (Json.Slots.row_orElse (Json.Slots.row_orElse ?_))
  exact Json.Slots.row_orElse rfl

/-- A file that can be read makes what it sets, and defaults. -/
theorem parse_eq_ok_iff {text : String} {c : Config} :
    record.parse text = .ok c ↔ ∃ s, Sets text s ∧ c = layered [s] := by
  have hrun := fun rest => @Json.Record.run_eq_ok_iff text.toList rest _ record c default_isSome
  unfold Json.Record.parse Sets
  simp only [Json.parse_eq_ok_iff, Json.Record.reader, hrun]
  constructor
  · rintro ⟨rest, ⟨slots, row, hgiven, hrow, rfl⟩, hend⟩
    refine ⟨_, ⟨slots, rest, hgiven, hend, rfl⟩, ?_⟩
    rw [row_slots] at hrow
    rw [← Except.ok.inj hrow, record.ofRow_row]
  · rintro ⟨_, ⟨slots, rest, hgiven, hend, rfl⟩, rfl⟩
    exact ⟨rest, ⟨slots, _, hgiven, row_slots slots, (record.ofRow_row _).symm⟩, hend⟩

theorem kind_of_ofFile {path : String} {content : Except ReadError String} {f : Failure}
    (h : ofFile path content = .error f) : f.kind = .validation := by
  unfold ofFile at h
  split at h
  · cases h
    rfl
  · split at h
    · cases h
      rfl
    · cases h

theorem kind_of_validate {c : Config} {f : Failure} (h : c.validate = .error f) :
    f.kind = .validation := by
  unfold validate at h
  split at h
  · cases h
    rfl
  · cases h

end Config

/-- The environment can be read, and sets these fields. -/
def Environment.Sets (e : Environment) (s : Settings) : Prop :=
  match e.retryCeiling with
  | none => s = { databasePath := e.database, deadLetterTopic := e.deadLetterTopic }
  | some text => ∃ n, Text.Writes text n ∧
      s = { databasePath := e.database, retryCeiling := some n, deadLetterTopic := e.deadLetterTopic }

namespace Layers

def flag (l : Layers) : Settings := { databasePath := l.database }

/-- The file, if there is one, can be read, and sets these fields. -/
def FileSets (l : Layers) (s : Settings) : Prop :=
  match l.file with
  | none => s = {}
  | some (_, content) => ∃ text, content = .ok text ∧ Config.Sets text s

variable {l : Layers} {c d : Config} {e : Environment}

theorem base_eq_ok_iff : l.base = .ok c ↔ ∃ file, l.FileSets file ∧ c = .layered [file] := by
  unfold base FileSets
  rcases l.file with _ | ⟨path, e | text⟩
  · simp [eq_comm, Config.layered, highest]
  · simp [Config.ofFile]
  · have hofFile : Config.ofFile path (.ok text) = .ok c ↔ Config.record.parse text = .ok c := by
      cases h : Config.record.parse text <;> simp [Config.ofFile, h]
    simp [hofFile, Config.parse_eq_ok_iff]

theorem ceiling_eq_ok_iff {n : UInt32} : e.ceiling c = .ok n ↔
    ∃ s, e.Sets s ∧ n = s.retryCeiling.getD c.retryCeiling := by
  unfold Environment.ceiling Environment.Sets
  cases e.retryCeiling with
  | none => simp [eq_comm]
  | some text =>
    have hn := fun n => @Text.uint32?_eq_some_iff text n
    cases hu : Text.uint32? text with
    | none => simp [← hn, hu]
    | some m => simp [← hn, hu, eq_comm]

/-- The environment overrides what it sets, and leaves the rest. -/
theorem layered_environment {s : Settings} (hs : e.Sets s) (layers : List Settings) :
    Config.layered (s :: layers) =
      { Config.layered layers with
        databasePath := e.database.getD (Config.layered layers).databasePath
        retryCeiling := s.retryCeiling.getD (Config.layered layers).retryCeiling
        deadLetterTopic := e.deadLetterTopic.getD (Config.layered layers).deadLetterTopic } := by
  unfold Environment.Sets at hs
  cases he : e.retryCeiling with
  | none =>
    rw [he] at hs
    obtain rfl := hs
    rfl
  | some text =>
    rw [he] at hs
    obtain ⟨n, -, rfl⟩ := hs
    rfl

theorem apply_eq_ok_iff {layers : List Settings} : e.apply (.layered layers) = .ok d ↔
    ∃ s, e.Sets s ∧ d = .layered (s :: layers) ∧ d.Valid := by
  have hceiling := fun n => @ceiling_eq_ok_iff (.layered layers) e n
  unfold Environment.apply
  constructor
  · intro h
    split at h
    · cases h
    · next n hn =>
      obtain ⟨s, hs, rfl⟩ := (hceiling n).1 hn
      obtain ⟨rfl, hvalid⟩ := Config.validate_eq_ok_iff.1 h
      exact ⟨s, hs, (layered_environment hs layers).symm, hvalid⟩
  · rintro ⟨s, hs, rfl, hvalid⟩
    rw [(hceiling _).2 ⟨s, hs, rfl⟩]
    rw [layered_environment hs] at hvalid ⊢
    exact Config.validate_eq_ok_iff.2 ⟨rfl, hvalid⟩

/-- Every layer that the configuration is made of can be read, and the highest values are valid. -/
structure Makes (l : Layers) (file environment : Settings) (c : Config) : Prop where
  fileSets : l.FileSets file
  environmentSets : l.environment.Sets environment
  highest : c = .layered [l.flag, environment, file]
  valid : c.Valid

/-- The name of the database does not matter for whether a configuration is valid. -/
theorem valid_flag (l : Layers) (layers : List Settings) :
    (Config.layered (l.flag :: layers)).Valid ↔ (Config.layered layers).Valid :=
  ⟨fun h => ⟨h.ceiling, h.timeout, h.topic⟩, fun h => ⟨h.ceiling, h.timeout, h.topic⟩⟩

theorem effective_eq_ok_iff :
    l.effective = .ok c ↔ ∃ file environment, l.Makes file environment c := by
  have hflag : ∀ layers, { Config.layered layers with
      databasePath := l.database.getD (Config.layered layers).databasePath } =
        Config.layered (l.flag :: layers) := fun _ => rfl
  unfold effective
  constructor
  · intro h
    split at h
    · cases h
    · next hbase =>
      obtain ⟨file, hfile, rfl⟩ := base_eq_ok_iff.1 hbase
      split at h
      · cases h
      · next happly =>
        obtain ⟨s, hs, rfl, -⟩ := apply_eq_ok_iff.1 happly
        obtain ⟨rfl, hvalid⟩ := Config.validate_eq_ok_iff.1 h
        exact ⟨file, s, hfile, hs, hflag _, hvalid⟩
  · rintro ⟨file, s, hfile, hs, rfl, hvalid⟩
    have hbelow := (l.valid_flag [s, file]).1 hvalid
    rw [base_eq_ok_iff.2 ⟨file, hfile, rfl⟩]
    dsimp only
    rw [apply_eq_ok_iff.2 ⟨s, hs, rfl, hbelow⟩]
    exact Config.validate_eq_ok_iff.2 ⟨(hflag _).symm, hvalid⟩

theorem kind_of_apply {f : Failure} (h : e.apply c = .error f) : f.kind = .validation := by
  unfold Environment.apply at h
  split at h
  · next hceiling =>
    cases h
    unfold Environment.ceiling at hceiling
    split at hceiling
    · cases hceiling
    · split at hceiling
      · cases hceiling
      · cases hceiling
        rfl
  · exact Config.kind_of_validate h

theorem kind_of_effective {f : Failure} (h : l.effective = .error f) : f.kind = .validation := by
  unfold effective base at h
  split at h
  · next hbase =>
    cases h
    split at hbase
    · cases hbase
    · exact Config.kind_of_ofFile hbase
  · split at h
    · next happly =>
      cases h
      exact kind_of_apply happly
    · exact Config.kind_of_validate h

/-- The environment sets the ceiling and the topic if the variables are there. -/
theorem sets_cases {s : Settings} (hs : e.Sets s) :
    (s.retryCeiling = none → e.retryCeiling = none) ∧
      s.deadLetterTopic = e.deadLetterTopic ∧ s.operationTimeout = none := by
  unfold Environment.Sets at hs
  cases he : e.retryCeiling with
  | none =>
    rw [he] at hs
    obtain rfl := hs
    exact ⟨fun _ => rfl, rfl, rfl⟩
  | some text =>
    rw [he] at hs
    obtain ⟨n, -, rfl⟩ := hs
    exact ⟨nofun, rfl, rfl⟩

/-- A field that the environment sets may have any value below. -/
theorem Makes.overridden {l' : Layers} {file file' environment : Settings}
    (h : l.Makes file environment c) (he : l'.environment = l.environment)
    (hfile : l'.FileSets file') (htimeout : file'.operationTimeout = file.operationTimeout)
    (hceiling : l.environment.retryCeiling = none → file'.retryCeiling = file.retryCeiling)
    (htopic : l.environment.deadLetterTopic = none →
      file'.deadLetterTopic = file.deadLetterTopic) :
    l'.Makes file' environment (.layered [l'.flag, environment, file']) := by
  obtain ⟨-, hs, rfl, hvalid⟩ := h
  obtain ⟨hnone, hsame, -⟩ := sets_cases hs
  -- the three fields that validity looks at have the same highest values
  have hc : (Config.layered [environment, file']).retryCeiling =
      (Config.layered [environment, file]).retryCeiling := by
    show environment.retryCeiling.getD (file'.retryCeiling.getD 3) =
      environment.retryCeiling.getD (file.retryCeiling.getD 3)
    cases hr : environment.retryCeiling with
    | none => rw [hceiling (hnone hr)]
    | some n => rfl
  have ht : (Config.layered [environment, file']).deadLetterTopic =
      (Config.layered [environment, file]).deadLetterTopic := by
    show environment.deadLetterTopic.getD (file'.deadLetterTopic.getD "dead-letters") =
      environment.deadLetterTopic.getD (file.deadLetterTopic.getD "dead-letters")
    cases hr : environment.deadLetterTopic with
    | none => rw [htopic (hsame ▸ hr)]
    | some topic => rfl
  have ho : (Config.layered [environment, file']).operationTimeout =
      (Config.layered [environment, file]).operationTimeout := by
    show environment.operationTimeout.getD (file'.operationTimeout.getD 30) =
      environment.operationTimeout.getD (file.operationTimeout.getD 30)
    rw [htimeout]
  rw [valid_flag] at hvalid
  refine ⟨hfile, he ▸ hs, rfl, (l'.valid_flag _).2 ⟨?_, ?_, ?_⟩⟩
  · exact hc ▸ hvalid.ceiling
  · exact ho ▸ hvalid.timeout
  · exact ht ▸ hvalid.topic

/-- The layers make a configuration exactly if the file and the environment can be read and the
highest values of all fields are valid; then that is the one.  Otherwise validation fails.  A field
that the environment sets may have any value in the file. -/
theorem effective_layered (l : Layers) :
    (∀ c, l.effective = .ok c ↔ ∃ file environment, l.Makes file environment c) ∧
      (∀ f, l.effective = .error f → f.kind = .validation) ∧
      ∀ (l' : Layers) (file file' environment : Settings) (c : Config),
        l.Makes file environment c → l'.environment = l.environment → l'.FileSets file' →
        file'.operationTimeout = file.operationTimeout →
        (l.environment.retryCeiling = none → file'.retryCeiling = file.retryCeiling) →
        (l.environment.deadLetterTopic = none → file'.deadLetterTopic = file.deadLetterTopic) →
        l'.effective = .ok (.layered [l'.flag, environment, file']) :=
  ⟨fun _ => effective_eq_ok_iff, fun _ => kind_of_effective,
    fun _ _ file' environment _ h he hfile htimeout hceiling htopic => effective_eq_ok_iff.2
      ⟨file', environment, h.overridden he hfile htimeout hceiling htopic⟩⟩

/-- The environment sets a ceiling, and there is no file. -/
def ceilingSet : Layers := ⟨none, { retryCeiling := some "+7" }, none⟩

/-- Below the same environment there is a file whose ceiling is not valid. -/
def ceilingRepaired : Layers :=
  ⟨some ("dlq.json", .ok "\x7b\"retry_ceiling\": 0, \"topic\": 1\x7d"),
    { retryCeiling := some "+7" }, some "x.db"⟩

theorem makes_ceilingSet : ceilingSet.Makes {} { retryCeiling := some 7 }
    (.layered [{}, { retryCeiling := some 7 }, {}]) where
  fileSets := rfl
  environmentSets := ⟨7, ⟨['7'], .inr (by simp), List.cons_ne_nil _ _,
    List.forall_mem_singleton.2 rfl, rfl⟩, rfl⟩
  highest := rfl
  valid := ⟨by decide, by decide, by decide +kernel⟩

/-- The file is read by recursion on what is left of it, which only evaluates when unfolded. -/
theorem fileSets_ceilingRepaired : ceilingRepaired.FileSets { retryCeiling := some 0 } :=
  ⟨_, rfl, (none, none, some (0 : UInt32), none, none, none, none, ()), [],
    by with_unfolding_all rfl, rfl, rfl⟩

/-- The ceiling of the environment repairs that of the file. -/
theorem effective_layered_repaired :
    ceilingSet.Makes {} { retryCeiling := some 7 }
        (.layered [{}, { retryCeiling := some 7 }, {}]) ∧
      ceilingRepaired.FileSets { retryCeiling := some 0 } ∧
      ceilingRepaired.effective = .ok (.layered [{ databasePath := some "x.db" },
        { retryCeiling := some 7 }, { retryCeiling := some 0 }]) :=
  ⟨makes_ceilingSet, fileSets_ceilingRepaired,
    (effective_layered ceilingSet).2.2 ceilingRepaired {} { retryCeiling := some 0 }
      { retryCeiling := some 7 } _ makes_ceilingSet rfl fileSets_ceilingRepaired rfl nofun
      fun _ => rfl⟩

end Layers

end DeadLetters
