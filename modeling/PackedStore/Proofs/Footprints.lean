/-
This file says how long the block of a container becomes. Whatever a run puts into
a map or a sequence and takes out again, in whatever order, only the peaks matter:
the most rows and the most arena that were there at a time, and the largest requests.
-/

import PackedStore.Proofs.Replies

namespace PackedStore

/-! ### First capacities -/

namespace Sizing

/-- The slots of a new container. -/
def slots (sizing : Sizing) : Nat :=
  nextPower (max sizing.capacity (2 ^ sizing.log2MinGrowth))

/-- The arena of a new container. -/
def arena (sizing : Sizing) : Nat :=
  if sizing.dataCapacity = 0 then 0 else nextPower (max sizing.dataCapacity (2 ^ sizing.log2MinGrowth))

theorem slots_of_grown {sizing : Sizing} {capacity : Nat}
    (grown : grownCapacity 0 sizing.capacity sizing.log2MinGrowth = .ok capacity) :
    capacity = sizing.slots := by
  rw [(grownCapacity_eq_ok.mp grown).1, Nat.max_eq_right (Nat.zero_le _), slots, nextPower]

theorem arena_of_initialData {sizing : Sizing} {dataCapacity : Nat}
    (grown : initialData sizing = .ok dataCapacity) : dataCapacity = sizing.arena := by
  unfold initialData at grown
  unfold arena
  by_cases nothing : sizing.dataCapacity = 0
  · rw [if_pos nothing] at grown ⊢
    exact (Except.ok.inj grown).symm
  · rw [if_neg nothing] at grown ⊢
    rw [(grownCapacity_eq_ok.mp grown).1, Nat.max_eq_right (Nat.zero_le _), nextPower]

end Sizing

/-- The first usage fits to no peaks at all. -/
theorem Peaks.fit_initial {sizing : Sizing} {usage : Usage} (capacity : usage.capacity = sizing.slots)
    (dataCapacity : usage.dataCapacity = sizing.arena)
    (step : usage.log2MinGrowth = sizing.log2MinGrowth) :
    Peaks.Fit sizing sizing.slots sizing.arena {} usage where
  capacity := by
    have positive : nextPower 0 ≤ sizing.slots := Nat.two_pow_pos _
    rw [capacity, Peaks.slots, Nat.max_self, Nat.max_eq_left positive]
  dataCapacity := by
    rw [dataCapacity, Peaks.arena, if_pos (Nat.zero_le _)]
  step := step

namespace Container

variable {Buffer : Type} [Host Buffer] {container : Container} {sizing : Sizing}
  {site later : Site Buffer} {peaks : Peaks} {usage : Usage}

/-! ### Runs -/

/-- The slots that a request asks for. -/
def requested : (container : Container) → container.Request → Nat
  | map _, .perform operation => operation.requested
  | sequence, .perform operation => operation.requested
  | indexedMap _, .perform (.single (.setCapacity capacity)) => capacity
  | map _, _ | sequence, _ | indexedMap _, _ => 0

/-- The units up to which a request reserves the arena. -/
def reserved (usage : Usage) : (container : Container) → container.Request → Nat
  | map _, .perform operation => operation.reserved usage
  | map _, _ | sequence, _ | indexedMap _, _ => 0

/-- A run of a container from its creation on in which no step fails, with its peaks. -/
inductive Run (container : Container) (sizing : Sizing) : Site Buffer → Peaks → Prop where
  | created {start site : Site Buffer} (run : container.init sizing start = .ok () site) :
      Run container sizing site {}
  | step {site later : Site Buffer} {peaks : Peaks} {before after : Usage} {reply : Reply}
      (run : Run container sizing site peaks) (request : container.Request)
      (brings : container.Brings request) (isBefore : container.usage site = .ok before site)
      (ran : container.ask request site = .ok reply later)
      (isAfter : container.usage later = .ok after later) :
      Run container sizing later
        (peaks.after (container.requested request) (container.reserved before request) after)

/-- The container keeps its values in an arena. -/
def Untyped : Container → Prop
  | indexedMap _ => False
  | _ => True

/-! ### One step -/

/-- The site holds the container, of which so much is in use. -/
def Tallied (site : Site Buffer) (usage : Usage) : Container → Prop
  | map key => ∃ ledger, UntypedMap.Records key site ledger ∧ ledger.header.usage = usage
  | sequence => ∃ ledger, UntypedSequence.Records site ledger ∧ ledger.header.usage = usage
  | indexedMap _ => False

namespace Tallied

theorem run_usage (tallied : container.Tallied site usage) :
    container.usage site = .ok usage site := by
  cases container with
  | map key =>
    obtain ⟨ledger, ⟨image, order, holds, isHeader, -⟩, rfl⟩ := tallied
    rw [Container.usage, Edit.run_map, holds.run_header, isHeader]
  | sequence =>
    obtain ⟨ledger, ⟨image, holds, isHeader⟩, rfl⟩ := tallied
    rw [Container.usage, Edit.run_map, holds.run_header, isHeader]
  | indexedMap shape => exact tallied.elim

theorem total_eq (tallied : container.Tallied site usage) :
    container.total usage.capacity usage.dataCapacity = .ok site.bytes.size := by
  cases container with
  | map key =>
    obtain ⟨ledger, records, rfl⟩ := tallied
    obtain ⟨layout, computed, size⟩ := records.size_eq
    rw [size]
    exact congrArg (Functor.map fun layout => layout.total) computed
  | sequence =>
    obtain ⟨ledger, records, rfl⟩ := tallied
    obtain ⟨layout, computed, size⟩ := records.size_eq
    rw [size]
    exact congrArg (Functor.map fun layout => layout.total) computed
  | indexedMap shape => exact tallied.elim

/-- The ledger of a new map or sequence has the capacities of the sizing. -/
theorem of_init [LawfulHost Buffer] (types : container.WellFormed) (untyped : container.Untyped)
    (run : container.init sizing site = .ok () later) :
    container.Tallied later ⟨0, sizing.slots, sizing.arena, 0, sizing.log2MinGrowth⟩ := by
  cases container with
  | map key =>
    obtain ⟨capacity, dataCapacity, grown, grownData, records⟩ :=
      UntypedMap.records_of_init types.key run
    rw [← Sizing.slots_of_grown grown, ← Sizing.arena_of_initialData grownData]
    exact ⟨_, records, rfl⟩
  | sequence =>
    obtain ⟨capacity, dataCapacity, grown, grownData, records⟩ :=
      UntypedSequence.records_of_init run
    rw [← Sizing.slots_of_grown grown, ← Sizing.arena_of_initialData grownData]
    exact ⟨_, records, rfl⟩
  | indexedMap shape => exact untyped.elim

/-- A request that is answered moves the usage as it asks. -/
theorem moves [LawfulHost Buffer] (wellFormed : container.WellFormed)
    (tallied : container.Tallied site usage) {request : container.Request}
    (brings : container.Brings request) {reply : Reply}
    (ran : container.ask request site = .ok reply later) :
    ∃ after, container.Tallied later after ∧
      usage.Moves (container.requested request) (container.reserved usage request) after := by
  cases container with
  | map key =>
    obtain ⟨ledger, records, rfl⟩ := tallied
    have enacts := (records.enacts_request wellFormed.key brings).map Reply.map
    obtain ⟨after, ends, stands⟩ := enacts.answered ran
    refine ⟨_, ⟨after, stands, rfl⟩, ?_⟩
    have regular := records.regular
    obtain ⟨_, ends, -⟩ := Plan.granted_map ends
    cases request with
    | perform operation =>
      obtain ⟨_, ends, -⟩ := Plan.granted_map ends
      exact UntypedMap.usage_of_granted regular records.count_eq ends
    | header | listing =>
      obtain rfl := congrArg Prod.snd ends
      exact .refl regular.usage
  | sequence =>
    obtain ⟨ledger, records, rfl⟩ := tallied
    have enacts := (records.enacts_request brings).map Reply.sequence
    obtain ⟨after, ends, stands⟩ := enacts.answered ran
    refine ⟨_, ⟨after, stands, rfl⟩, ?_⟩
    have regular := records.regular
    obtain ⟨_, ends, -⟩ := Plan.granted_map ends
    cases request with
    | perform operation =>
      obtain ⟨_, ends, -⟩ := Plan.granted_map ends
      exact UntypedSequence.usage_of_granted regular stands.regular brings ends
    | header | listing =>
      obtain rfl := congrArg Prod.snd ends
      exact .refl regular.usage
  | indexedMap shape => exact tallied.elim

end Tallied

/-! ### Footprints -/

/-- The capacities of a run are those for its peaks. -/
theorem Run.tallied [LawfulHost Buffer] (untyped : container.Untyped)
    (wellFormed : container.WellFormed) (run : Run container sizing site peaks) :
    ∃ usage, container.Tallied site usage ∧ peaks.Fit sizing sizing.slots sizing.arena usage := by
  induction run with
  | created run =>
    exact ⟨_, Tallied.of_init wellFormed untyped run, Peaks.fit_initial rfl rfl rfl⟩
  | step _ request brings isBefore ran isAfter inductionHypothesis =>
    obtain ⟨usage, tallied, fit⟩ := inductionHypothesis
    obtain ⟨rfl, -⟩ := EStateM.Result.ok.inj (tallied.run_usage.symm.trans isBefore)
    obtain ⟨after, talliedLater, moves⟩ := tallied.moves wellFormed brings ran
    obtain ⟨rfl, -⟩ := EStateM.Result.ok.inj (talliedLater.run_usage.symm.trans isAfter)
    exact ⟨after, talliedLater, fit.moves moves⟩

/-- Runs with the same peaks end with blocks of the same length, on any hosts. -/
theorem Run.size_eq [LawfulHost Buffer] {Other : Type} [Host Other] [LawfulHost Other]
    {other : Site Other} (untyped : container.Untyped) (wellFormed : container.WellFormed)
    (run : Run container sizing site peaks) (again : Run container sizing other peaks) :
    other.bytes.size = site.bytes.size := by
  obtain ⟨usage, tallied, fit⟩ := run.tallied untyped wellFormed
  obtain ⟨usageAgain, talliedAgain, fitAgain⟩ := again.tallied untyped wellFormed
  have total := talliedAgain.total_eq
  rw [fitAgain.capacity, fitAgain.dataCapacity, ← fit.capacity, ← fit.dataCapacity,
    tallied.total_eq] at total
  exact (Except.ok.inj total).symm

/-- After every run the capacities are those for its peaks, and the block is as long as these
capacities need, whatever else the run has done. -/
theorem Run.footprint [LawfulHost Buffer] (untyped : container.Untyped)
    (wellFormed : container.WellFormed) (run : Run container sizing site peaks) :
    ∃ usage, container.usage site = .ok usage site ∧
      usage.capacity =
        max sizing.slots (max (nextPower peaks.count) (nextPower peaks.requested)) ∧
      usage.dataCapacity =
        (if peaks.data ≤ sizing.arena then sizing.arena
          else nextPower (max (2 ^ usage.log2MinGrowth) peaks.data)) ∧
      usage.log2MinGrowth = sizing.log2MinGrowth ∧
      container.total usage.capacity usage.dataCapacity = .ok site.bytes.size ∧
      ∀ (Other : Type) [Host Other] [LawfulHost Other] (other : Site Other),
        Run container sizing other peaks → other.bytes.size = site.bytes.size := by
  obtain ⟨usage, tallied, fit⟩ := run.tallied untyped wellFormed
  refine ⟨usage, tallied.run_usage, fit.capacity, ?_, fit.step, tallied.total_eq,
    fun Other _ _ other again => run.size_eq untyped wellFormed again⟩
  rw [fit.step]
  exact fit.dataCapacity

/-! ### Runs of sequences -/

section

open UntypedSequence (Mirrors Operation)

variable [LawfulHost Buffer] {granted : Buffer → Prop} {known : ElementType → Prop}
  {elements changed : List Datum}

/-- A sequence that has room for its values can be asked on, on a host that grants resizes. -/
theorem Run.perform (granting : Granting granted) (family : TypeFamily known)
    (run : Run .sequence sizing site peaks) (mirrors : Mirrors granted known elements site)
    {operation : Operation} (fits : operation.Fits known) (room : operation.Room elements)
    {answer : UntypedSequence.Answer}
    (responds : UntypedSequence.Elements.step operation elements = (.ok answer, changed)) :
    ∃ later, Mirrors granted known changed later ∧
      Run .sequence sizing later ⟨max peaks.count changed.length,
        max peaks.requested operation.requested,
        max peaks.data (UntypedSequence.packedFrom 0 changed)⟩ := by
  have usageOf {elements : List Datum} {site : Site Buffer}
      (mirrors : Mirrors granted known elements site) : ∃ usage : Usage,
      Container.sequence.usage site = .ok usage site ∧ usage.count = elements.length ∧
        usage.dataAllocated = UntypedSequence.packedFrom 0 elements := by
    obtain ⟨image, holds⟩ := mirrors.carries
    exact ⟨image.header.usage, by rw [Container.usage, Edit.run_map, holds.run_header],
      holds.represents.count, holds.represents.allocated⟩
  obtain ⟨same, mirrorsLater⟩ := mirrors.step granting family ⟨fits, room⟩
  rw [responds] at same mirrorsLater
  have ran := Store.run_of_outcome_ok same.symm
  obtain ⟨before, isBefore, -, -⟩ := usageOf mirrors
  obtain ⟨after, isAfter, count, allocated⟩ := usageOf mirrorsLater
  have brings : Container.sequence.Brings (.perform operation) := by
    cases operation with
    | add | exchange | elementAt => exact family.wellFormed _ fits
    | _ => trivial
  have asked : Container.sequence.ask (.perform operation) site =
      .ok (.sequence (.answer answer)) (Store.machine Operation.run operation site).2 := by
    rw [Container.ask, UntypedSequence.Request.ask, Edit.run_map, Edit.run_map, ran]
    rfl
  have stepped := run.step (.perform operation) brings isBefore asked isAfter
  refine ⟨_, mirrorsLater, ?_⟩
  rw [Peaks.after, count, allocated, Nat.max_eq_left (show Container.sequence.reserved before
    (.perform operation) ≤ _ from Nat.zero_le _)] at stepped
  exact stepped

end

/-- A sequence that had two values and was asked for a thousand slots has these slots and one growth
step of arena, also after a value has been removed. -/
theorem removed_footprint : ∃ (site : Site BlockBuffer) (usage : Usage),
    Run .sequence {} site ⟨2, 1000, 32⟩ ∧ Container.sequence.usage site = .ok usage site ∧
      usage.capacity = 1024 ∧ usage.dataCapacity = 256 := by
  have words : TypeFamily UntypedMap.WordOrWide := UntypedMap.family_wordOrWide
  obtain ⟨start, created⟩ := @UntypedSequence.run_init_of_granting BlockBuffer _ ⟨.empty none, []⟩ _ _
    BlockBuffer.granting rfl rfl {} (by decide) (by decide) (by decide)
  obtain ⟨word, mirrors, run⟩ := Run.perform BlockBuffer.granting words (.created created)
    (.of_init BlockBuffer.granting rfl created)
    (show (UntypedSequence.Operation.add (UntypedSequence.wordDatum 1)).Fits _ from Or.inl rfl)
    (Nat.le_of_ble_eq_true rfl) rfl
  obtain ⟨wide, mirrors, run⟩ := Run.perform BlockBuffer.granting words run mirrors
    (show (UntypedSequence.Operation.add (UntypedMap.wideDatum 2)).Fits _ from Or.inr rfl)
    (Nat.le_of_ble_eq_true rfl) rfl
  obtain ⟨removed, mirrors, run⟩ := Run.perform BlockBuffer.granting words run mirrors
    (show (UntypedSequence.Operation.removeAt 0).Fits _ from trivial) trivial rfl
  obtain ⟨site, -, run⟩ := Run.perform BlockBuffer.granting words run mirrors
    (show (UntypedSequence.Operation.setCapacity 1000).Fits _ from trivial) trivial rfl
  have wellFormed : Container.sequence.WellFormed := fun _ member =>
    absurd member List.not_mem_nil
  have untyped : Container.sequence.Untyped := trivial
  obtain ⟨usage, isUsage, capacity, dataCapacity, step, -, -⟩ := run.footprint untyped wellFormed
  rw [step] at dataCapacity
  exact ⟨site, usage, run, isUsage, capacity, dataCapacity⟩

end Container

end PackedStore
