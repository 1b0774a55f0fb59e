/-
This file runs an untyped map and a list of entries side by side. The list says
what every operation answers, and how the entries change: a new key comes behind
all others, a value gives way to one of the same size, and a typed access succeeds
for the type the value was stored with. The map gives the same answers as long as
what is asked for is within its limits and the host grants it.
-/

import PackedStore.Element.DataType
import PackedStore.Proofs.Host.BlockBuffer
import PackedStore.Proofs.Host.Runs
import PackedStore.Proofs.UntypedMap.Operations

namespace PackedStore.UntypedMap

/-- An operation whose answer depends on the entries only. -/
inductive Operation where
  | add (key : Bytes) (datum : Datum)
  | addBytes (key : Bytes) (tag : TypeTag) (content : Bytes)
  | addOrSet (key : Bytes) (datum : Datum)
  | addOrSetBytes (key : Bytes) (tag : TypeTag) (content : Bytes)
  | getOrAdd (key : Bytes) (default : Datum)
  | exchange (key : Bytes) (datum : Datum)
  | setCapacity (capacity : Nat)
  | reserveData (additional : Nat)
  | clear
  | get (key : Bytes) (type : ElementType)
  | getBytes (key : Bytes)
  | find (key : Bytes)
  | contains (key : Bytes)
  | keys
  | count

/-- The answers of operations. -/
inductive Answer where
  | done
  | flag (value : Bool)
  | number (value : Nat)
  | slot (value : Option Nat)
  | value (content : Option Bytes)
  | stored (value : Option (TypeTag × Bytes))
  | keys (keys : List Bytes)
deriving DecidableEq, Repr

namespace Operation

/-- The operation on a map in a host. -/
def run {Buffer : Type} [Host Buffer] (key : KeyType) : Operation → Store Buffer Answer
  | add entryKey datum => .number <$> UntypedMap.add key entryKey datum
  | addBytes entryKey tag content => .number <$> UntypedMap.addBytes key entryKey tag content
  | addOrSet entryKey datum => (fun _ => .done) <$> UntypedMap.addOrSet key entryKey datum
  | addOrSetBytes entryKey tag content =>
    (fun _ => .done) <$> UntypedMap.addOrSetBytes key entryKey tag content
  | getOrAdd entryKey default =>
    (fun content => .value (some content)) <$> UntypedMap.getOrAdd key entryKey default
  | exchange wanted datum => .value <$> UntypedMap.exchange key wanted datum
  | setCapacity capacity => (fun _ => .done) <$> UntypedMap.setCapacity key capacity
  | reserveData additional => (fun _ => .done) <$> UntypedMap.reserveData key additional
  | clear => (fun _ => .done) <$> UntypedMap.clear key
  | get wanted type => .value <$> UntypedMap.get? key wanted type
  | getBytes wanted => .stored <$> UntypedMap.getBytes? key wanted
  | find wanted => .slot <$> UntypedMap.find key wanted
  | contains wanted => .flag <$> UntypedMap.contains key wanted
  | keys => .keys <$> UntypedMap.keys key
  | count => (fun header => .number header.count) <$> header

/-- The operation finds out about keys and values, if only by a typed access that writes. -/
def Inspects : Operation → Prop
  | exchange _ _ | get _ _ | getBytes _ | find _ | contains _ | keys | count => True
  | _ => False

/-- The operation brings keys that fit the key type, and its types are known. -/
def Fits (known : ElementType → Prop) (key : KeyType) : Operation → Prop
  | add entryKey datum | addOrSet entryKey datum | getOrAdd entryKey datum =>
    key.Fits entryKey ∧ known datum.type
  | addBytes entryKey _ _ | addOrSetBytes entryKey _ _ => key.Fits entryKey
  | exchange _ datum => known datum.type
  | get _ type => known type
  | _ => True

/-- An operation fits with more known types as well. -/
theorem Fits.weaken {known wider : ElementType → Prop} (le : ∀ type, known type → wider type)
    {key : KeyType} {operation : Operation} (fits : operation.Fits known key) :
    operation.Fits wider key := by
  cases operation with
  | add | addOrSet | getOrAdd => exact ⟨fits.1, le _ fits.2⟩
  | addBytes | addOrSetBytes => exact fits
  | exchange | get => exact le _ fits
  | _ => trivial

/-- What the operation asks of a map is within the limits of slots and arena. -/
def Room (key : KeyType) (image : Image) : Operation → Prop
  | add entryKey datum | getOrAdd entryKey datum => image.AddRoom key entryKey datum.payload
  | addBytes entryKey tag content => image.AddRoom key entryKey (.raw tag content)
  | addOrSet entryKey datum => image.StoreRoom key entryKey datum.payload
  | addOrSetBytes entryKey tag content => image.StoreRoom key entryKey (.raw tag content)
  | setCapacity capacity => capacity ≤ maxCapacity
  | reserveData additional => image.header.dataAllocated + additional ≤ maxCapacity
  | _ => True

end Operation

namespace Entries

/-- What an operation answers from the entries, and the entries after it. -/
def perform : Operation → List Entry → Checked (Answer × List Entry)
  | .add key datum, entries => Prod.map .number id <$> do
    demandStorable datum.type
    insertUnique entries key datum.payload
  | .addBytes key tag content, entries => Prod.map .number id <$> do
    demand (content.size ≠ 0) .emptyValue
    insertUnique entries key (.raw tag content)
  | .addOrSet key datum, entries => Prod.map (fun _ => .done) id <$> do
    demandStorable datum.type
    store entries key datum.payload
  | .addOrSetBytes key tag content, entries => Prod.map (fun _ => .done) id <$> do
    demand (content.size ≠ 0) .emptyValue
    store entries key (.raw tag content)
  | .getOrAdd key default, entries => Prod.map (fun content => .value (some content)) id <$> do
    demandStorable default.type
    getOrAdd entries key default
  | .exchange key datum, entries => Prod.map .value id <$> exchange entries key datum
  | .setCapacity _, entries | .reserveData _, entries => return (.done, entries)
  | .clear, _ => return (.done, [])
  | .get key type, entries => do return (.value (← get? entries key type), entries)
  | .getBytes key, entries =>
    return (.stored ((lookup entries key).map fun value => (value.tag, value.bytes)), entries)
  | .find key, entries => return (.slot (find entries key), entries)
  | .contains key, entries => return (.flag (find entries key).isSome, entries)
  | .keys, entries => return (.keys (entries.map Entry.key), entries)
  | .count, entries => return (.number entries.length, entries)

/-- The entries as a machine: an operation that fails leaves them as they were. -/
def step : Machine Operation (List Entry) Answer := fun operation entries =>
  match perform operation entries with
  | .ok (answer, changed) => (.ok answer, changed)
  | .error failure => (.error failure, entries)

end Entries

variable {Buffer : Type} [Host Buffer] {known : ElementType → Prop} {key : KeyType}
  {site : Site Buffer} {image : Image} {entries : List Entry} {order : Nat → List Nat}

/-! ### Single operations -/

namespace Holds

/-- An operation that reads only performs when its answer is the expected one. -/
theorem performs_of_read (holds : Holds known key site image entries order) {limits : Prop}
    {Hinders : Site Buffer → Failure → Prop} {α : Type} {operation : Store Buffer α} {answer : α}
    {change : α → Answer} {expected : Answer} (run : operation site = .ok answer site)
    (same : change answer = expected) :
    Store.Performs (Carries known key) Hinders site entries limits (change <$> operation)
      (.ok (expected, entries)) :=
  .answered (by rw [Edit.run_map, run]) (by rw [same]) holds.follows

/-- A typed read performs, whether the value has the type or not. -/
theorem performs_get (holds : Holds known key site image entries order) {limits : Prop}
    {Hinders : Site Buffer → Failure → Prop} (wanted : Bytes) {type : ElementType}
    (isKnown : known type) (positive : 0 < type.align) :
    Store.Performs (Carries known key) Hinders site entries limits (.value <$> get? key wanted type)
      (do return (Answer.value (← Entries.get? entries wanted type), entries)) := by
  have performs : Store.Performs (Carries known key) Hinders site entries limits
      (get? key wanted type) _ := .of_checked holds.carries (holds.run_get? wanted isKnown positive)
  have same : Prod.map Answer.value id <$> ((·, entries) <$> Entries.get? entries wanted type) =
      (do return (Answer.value (← Entries.get? entries wanted type), entries)) := by
    cases Entries.get? entries wanted type <;> rfl
  exact same ▸ performs.map Answer.value

/-- Nothing can hinder an operation that inspects the entries. -/
theorem performs_of_inspects [LawfulHost Buffer] (wellFormed : key.toElementType.WellFormed)
    (types : AlignedTypes known) (holds : Holds known key site image entries order)
    {operation : Operation} (fits : operation.Fits known key) (inspects : operation.Inspects)
    {Hinders : Site Buffer → Failure → Prop} :
    Store.Performs (Carries known key) Hinders site entries True (operation.run key)
      (Entries.perform operation entries) := by
  cases operation with
  | exchange wanted datum => exact (holds.run_exchange wellFormed types fits).map Answer.value
  | get wanted type => exact holds.performs_get wanted fits (types.isAlign fits).pos
  | getBytes wanted => exact holds.performs_of_read (holds.run_getBytes? wanted) rfl
  | find wanted => exact holds.performs_of_read (holds.run_find wanted) rfl
  | contains wanted => exact holds.performs_of_read (holds.run_contains wanted) rfl
  | keys => exact holds.performs_of_read holds.run_keys rfl
  | count =>
    exact holds.performs_of_read holds.run_header (congrArg Answer.number holds.represents.count)
  | _ => exact inspects.elim

/-- What an operation finds out about the entries is the same in every host. -/
theorem outcome_of_inspects [LawfulHost Buffer] (wellFormed : key.toElementType.WellFormed)
    (types : AlignedTypes known) (holds : Holds known key site image entries order)
    {operation : Operation} (fits : operation.Fits known key) (inspects : operation.Inspects) :
    (Store.outcome (operation.run key) site).1 = (Entries.step operation entries).1 := by
  have performs : Store.Performs (Carries known key) (fun _ _ => False) site entries True _ _ :=
    holds.performs_of_inspects wellFormed types fits inspects
  rcases performs.agrees trivial fun _ _ _ => id with
    ⟨answer, changed, same, answered, -⟩ | ⟨failure, same, failed, -⟩
  · rw [answered, Entries.step, same]
  · rw [failed, Entries.step, same]

/-- Every operation on the map performs as the same operation on its entries. -/
theorem performs [LawfulHost Buffer] (wellFormed : key.toElementType.WellFormed)
    (types : AlignedTypes known) (holds : Holds known key site image entries order)
    {operation : Operation} (fits : operation.Fits known key) :
    Performs known key site entries (operation.Room key image) (operation.run key)
      (Entries.perform operation entries) := by
  cases operation with
  | add entryKey datum =>
    exact (Store.Performs.guard holds.carries fun _ =>
      holds.run_insertUnique wellFormed fits.1 (types.fits_payload fits.2)).map Answer.number
  | addBytes entryKey tag content =>
    exact (Store.Performs.guard holds.carries fun _ =>
      holds.run_insertUnique wellFormed fits (types.fits_raw tag content)).map Answer.number
  | addOrSet entryKey datum =>
    exact (Store.Performs.guard holds.carries fun _ =>
      holds.run_store wellFormed fits.1 (types.fits_payload fits.2)).map fun _ => Answer.done
  | addOrSetBytes entryKey tag content =>
    exact (Store.Performs.guard holds.carries fun _ =>
      holds.run_store wellFormed fits (types.fits_raw tag content)).map fun _ => Answer.done
  | getOrAdd entryKey default =>
    exact (holds.run_getOrAdd wellFormed types fits.1 fits.2).map fun content =>
      Answer.value (some content)
  | setCapacity capacity =>
    exact (holds.run_setCapacity wellFormed capacity).map fun _ => Answer.done
  | reserveData additional =>
    exact (holds.run_reserveData wellFormed additional).map fun _ => Answer.done
  | clear => exact (holds.run_clear wellFormed).map fun _ => Answer.done
  | _ => exact holds.performs_of_inspects wellFormed types fits trivial

end Holds

/-! ### Runs -/

/-- The operation asks for no more than the map in the block can have. -/
def Within (key : KeyType) (operation : Operation) (site : Site Buffer) : Prop :=
  ∀ image, Image.load key.toElementType site.bytes = .ok image → operation.Room key image

/-- The host of the site grants resizes, and the site holds the entries. -/
def Mirrors (granted : Buffer → Prop) (known : ElementType → Prop) (key : KeyType)
    (site : Site Buffer) (entries : List Entry) : Prop :=
  granted site.buffer ∧ ∃ image order, Holds known key site image entries order

variable [LawfulHost Buffer] {granted : Buffer → Prop}

/-- Within the limits of a map, a host that grants resizes is never in the way. -/
theorem Mirrors.step (granting : Granting granted) (wellFormed : key.toElementType.WellFormed)
    (family : TypeFamily known) {operation : Operation} (fits : operation.Fits known key)
    (within : Within key operation site) (mirrors : Mirrors granted known key site entries) :
    (Store.machine (Operation.run key) operation site).1 = (Entries.step operation entries).1 ∧
      Mirrors granted known key (Store.machine (Operation.run key) operation site).2
        (Entries.step operation entries).2 := by
  obtain ⟨here, image, order, holds⟩ := mirrors
  have free (middle : Site Buffer) (failure : Failure) (continues : site.Continues middle) :
      ¬ CannotGrow key middle failure :=
    not_cannotGrow granting (continues granted granting here) (holds.supported wellFormed)
      holds.represents.framed.header.keySize_lt
  rcases (holds.performs wellFormed family.aligned fits).agrees (within image holds.loaded) free with
    ⟨answer, changed, same, answered, follows⟩ | ⟨failure, same, failed, follows⟩
  · rw [Entries.step, same]
    exact ⟨answered, follows.continues granted granting here, follows.stands⟩
  · rw [Entries.step, same]
    exact ⟨failed, follows.continues granted granting here, follows.stands⟩

/-- A new map has room for any value that it can hold. -/
theorem within_of_init (wellFormed : key.toElementType.WellFormed) {start : Site Buffer}
    {sizing : Sizing} (run : init key sizing start = .ok () site) {entryKey : Bytes} {datum : Datum}
    (size : datum.bytes.size < 2 ^ 16) (supported : IsAlign datum.type.align) :
    Within key (.add entryKey datum) site := by
  obtain ⟨image, created, nothing, -⟩ :=
    @holds_of_init _ _ (fun _ => False) key start _ wellFormed _ _ run
  intro found loaded _
  obtain rfl := Except.ok.inj (created.loaded.symm.trans loaded)
  have words : wordsFor datum.bytes.size ≤ 2 ^ 14 := by
    unfold wordsFor wordSize
    omega
  obtain ⟨offset, planned, -, near, -⟩ :=
    @planAllocation_of 0 datum.bytes.size datum.type.align supported (by unfold sizeLimit; omega)
  refine ⟨?_, Or.inr ⟨_, by rw [nothing]; exact planned, ?_⟩⟩
  · rw [created.represents.count]
    decide
  · show offset + wordsFor datum.bytes.size ≤ 2 ^ 29
    omega

/-- On a host that grants resizes, a map answers every run within its limits, from its creation
on, as the list of entries does, in which no key is ever there twice. The keys that it is given take
bytes, and two of them are the same when their bytes are. -/
theorem answers_eq_entries (granting : Granting granted) (wellFormed : key.toElementType.WellFormed)
    (family : TypeFamily known) {start : Site Buffer} (here : granted start.buffer)
    {sizing : Sizing} (run : init key sizing start = .ok () site) {operations : List Operation}
    (fits : ∀ operation ∈ operations, operation.Fits known key)
    (within : (Store.machine (Operation.run key)).Always (Within key) operations site) :
    (Store.machine (Operation.run key)).answers operations site =
        Machine.answers Entries.step operations [] ∧
      Entries.Distinct (Machine.reached Entries.step operations []) := by
  obtain ⟨image, created, -, continues⟩ := @holds_of_init _ _ known key start _ wellFormed _ _ run
  have mirrors : Mirrors granted known key site [] :=
    ⟨continues granted granting here, image, _, created⟩
  have step (operation : Operation) (site : Site Buffer) (entries : List Entry)
      (allowed : operation.Fits known key ∧ Within key operation site)
      (mirrors : Mirrors granted known key site entries) :=
    mirrors.step granting wellFormed family allowed.1 allowed.2
  obtain ⟨answers, -, _, _, holds⟩ :=
    Machine.answers_eq_of_always step (Machine.always_and fits within) mirrors
  exact ⟨answers, holds.represents.distinct⟩

/-! ### Words and wide values -/

/-- Words, and values of sixteen bytes that are aligned to as many. -/
def WordOrWide (type : ElementType) : Prop :=
  type = .word32 ∨ type = DataType.wide.element

theorem family_wordOrWide : TypeFamily WordOrWide where
  wellFormed type isKnown := by
    rcases isKnown with rfl | rfl
    · exact ElementType.wellFormed_word32
    · exact ⟨⟨4, rfl⟩, Nat.dvd_refl 16⟩
  supported type isKnown := by
    rcases isKnown with rfl | rfl <;> decide
  distinct type other isKnown otherKnown sameTag := by
    have different : ElementType.word32.tag ≠ DataType.wide.element.tag := by decide
    rcases isKnown with rfl | rfl <;> rcases otherKnown with rfl | rfl
    · rfl
    · exact absurd sameTag different
    · exact absurd sameTag.symm different
    · rfl

/-- A wide value. -/
def wideDatum (value : Nat) : Datum :=
  ⟨DataType.wide.element, (Bytes.littleEndian 16 value).toArray, Bytes.length_littleEndian 16 value⟩

/-- The key of a number. -/
def keyOf (number : Nat) : Bytes :=
  (Bytes.littleEndian 4 number).toArray

theorem fits_keyOf {key : KeyType} (size : key.size = 4) (number : Nat) : key.Fits (keyOf number) :=
  ⟨(Bytes.length_littleEndian 4 number).trans size.symm, size ▸ (by decide : 0 < 4)⟩

/-- A wide value is added, replaced, and read as what it is and as what it is not. -/
theorem wide_answers_as_entries :
    ∃ site : Site BlockBuffer, init wordKey {} ⟨.empty none, []⟩ = .ok () site ∧
      (Store.machine (Operation.run wordKey)).answers
        [.add (keyOf 7) (wideDatum 1), .setCapacity 1000, .exchange (keyOf 7) (wideDatum 2),
          .get (keyOf 7) DataType.wide.element, .get (keyOf 7) .word32, .getBytes (keyOf 7),
          .find (keyOf 7), .keys, .contains (keyOf 8), .clear, .count] site =
        [.ok (.number 0), .ok .done, .ok (.value (some (wideDatum 1).bytes)),
          .ok (.value (some (wideDatum 2).bytes)),
          .error (.misuse (.typeMismatch (.slot 0) DataType.wide.element.tag 16 .word32)),
          .ok (.stored (some (DataType.wide.element.tag, (wideDatum 2).bytes))),
          .ok (.slot (some 0)), .ok (.keys [keyOf 7]), .ok (.flag false), .ok .done,
          .ok (.number 0)] := by
  obtain ⟨site, run⟩ := @run_init_of_granting BlockBuffer _ wordKey ⟨.empty none, []⟩ _ _
    BlockBuffer.granting rfl ElementType.wellFormed_word32 (by decide) (by decide) rfl {}
    (by decide) (by decide) (by decide)
  refine ⟨site, run, (answers_eq_entries BlockBuffer.granting ElementType.wellFormed_word32
    family_wordOrWide rfl run ?_ ?_).1.trans ?_⟩
  · simp only [List.mem_cons, List.not_mem_nil, or_false, forall_eq_or_imp, forall_eq]
    exact ⟨⟨fits_keyOf rfl 7, Or.inr rfl⟩, trivial, Or.inr rfl, Or.inr rfl, Or.inl rfl, trivial,
      trivial, trivial, trivial, trivial, trivial⟩
  · refine ⟨within_of_init ElementType.wellFormed_word32 run (by decide) (isAlign_iff.mpr (by decide)),
      fun _ _ => ?_, ?_⟩
    · show 1000 ≤ maxCapacity
      decide
    · exact ⟨fun _ _ => trivial, fun _ _ => trivial, fun _ _ => trivial, fun _ _ => trivial,
        fun _ _ => trivial, fun _ _ => trivial, fun _ _ => trivial, fun _ _ => trivial,
        fun _ _ => trivial, trivial⟩
  · rfl

/-- A key that takes no bytes is not entered where the list would enter it. -/
theorem unit_key_not_entered :
    ∃ site : Site BlockBuffer,
      init unitKey { capacity := 1, minGrowth := 1 } ⟨.empty none, []⟩ = .ok () site ∧
      (Store.machine (Operation.run unitKey)).answers [.add #[] (wideDatum 1)] site =
        [.error (.fault .outOfRange)] ∧
      Machine.answers Entries.step [.add #[] (wideDatum 1)] [] = [.ok (.number 0)] := by
  have run : init unitKey { capacity := 1, minGrowth := 1 } (⟨.empty none, []⟩ : Site BlockBuffer) =
      .ok () _ := Store.run_of_outcome_ok (by decide +kernel)
  exact ⟨_, run, by decide +kernel, rfl⟩

end PackedStore.UntypedMap
