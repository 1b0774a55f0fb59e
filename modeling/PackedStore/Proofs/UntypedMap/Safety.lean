/-
This file says that a map is safe to use: a block that holds one can be attached
to and taken apart into its arrays, and whatever is asked of it leads to a block
that holds a map again. Where an operation fails, the caller broke a documented
rule or a resource ran out, and a map that cannot be created leaves its block as
it was.
-/

import PackedStore.Proofs.UntypedMap.Simulation

namespace PackedStore.UntypedMap

/-! ### The parts of a map -/

/-- The parts of the map that a block holds. -/
def parts (key : KeyType) (bytes : Bytes) : Checked (List (Segment × Segment.Content)) := do
  let image ← Image.load key.toElementType bytes
  return image.layout.parts key.toElementType image.header.capacity image.header.bucketCapacity
    image.header.dataCapacity

/-- Wherever there are parts, the block can be taken apart into them. -/
theorem carved_parts {key : KeyType} (wellFormed : key.toElementType.WellFormed) {bytes : Bytes}
    {taken : List (Segment × Segment.Content)} (isParts : parts key bytes = .ok taken) :
    Segment.Carved bytes taken := by
  obtain ⟨image, loaded, returned⟩ := Checked.bind_eq_ok.mp isParts
  obtain rfl := Except.ok.inj returned
  obtain ⟨header, layout, -, computed, inside, rfl⟩ := Image.load_eq_ok.mp loaded
  have placed := Layout.placed_of_compute wellFormed computed
  exact Segment.carved_of_spans placed.spans inside placed.suits

/-! ### Failures of entries -/

namespace Entries

variable {entries : List Entry} {slot : Nat} {value : Value}

theorem documented_read (there : stored entries slot = some value) (type : ElementType) :
    (read entries slot type).FailsOnly Failure.Documented := by
  rw [read_of_stored there]
  exact (Checked.FailsOnly.demand _ fun _ => trivial).bind fun _ => .ok _

theorem documented_insert (entries : List Entry) (key : Bytes) (payload : Payload) :
    (insert entries key payload).FailsOnly Failure.Documented :=
  (Checked.FailsOnly.demand _ fun _ => trivial).bind fun _ => .ok _

theorem documented_insertUnique (entries : List Entry) (key : Bytes) (payload : Payload) :
    (insertUnique entries key payload).FailsOnly Failure.Documented :=
  (Checked.FailsOnly.demand _ fun _ => trivial).bind fun _ => documented_insert entries key payload

theorem documented_store (entries : List Entry) (key : Bytes) (payload : Payload) :
    (store entries key payload).FailsOnly Failure.Documented := by
  unfold store
  cases found : find entries key with
  | none => exact (documented_insert entries key payload).map _
  | some slot =>
    obtain ⟨old, there⟩ := exists_stored found
    simp only [replace, there, orFail, Checked.bind_ok]
    exact (Checked.FailsOnly.demand _ fun _ => trivial).bind fun _ => .ok _

theorem documented_getOrAdd (entries : List Entry) (key : Bytes) (default : Datum) :
    (getOrAdd entries key default).FailsOnly Failure.Documented := by
  unfold getOrAdd
  cases found : find entries key with
  | none => exact (documented_insert entries key default.payload).map _
  | some slot =>
    obtain ⟨value, there⟩ := exists_stored found
    exact (documented_read there default.type).map _

theorem documented_exchange (entries : List Entry) (key : Bytes) (datum : Datum) :
    (exchange entries key datum).FailsOnly Failure.Documented := by
  unfold exchange
  cases found : find entries key with
  | none => exact .ok _
  | some slot =>
    obtain ⟨value, there⟩ := exists_stored found
    exact (documented_read there datum.type).bind fun _ => .ok _

theorem documented_get? (entries : List Entry) (key : Bytes) (type : ElementType) :
    (get? entries key type).FailsOnly Failure.Documented := by
  unfold get?
  cases found : find entries key with
  | none => exact .ok _
  | some slot =>
    obtain ⟨value, there⟩ := exists_stored found
    exact (documented_read there type).map _

/-- Operations on entries fail only where the caller broke a documented rule. -/
theorem documented_perform (operation : Operation) (entries : List Entry) :
    (perform operation entries).FailsOnly Failure.Documented := by
  cases operation with
  | add key datum =>
    exact ((documented_demandStorable _).bind fun _ => documented_insertUnique _ _ _).map _
  | addBytes key tag content =>
    exact ((Checked.FailsOnly.demand _ fun _ => trivial).bind fun _ =>
      documented_insertUnique _ _ _).map _
  | addOrSet key datum =>
    exact ((documented_demandStorable _).bind fun _ => documented_store _ _ _).map _
  | addOrSetBytes key tag content =>
    exact ((Checked.FailsOnly.demand _ fun _ => trivial).bind fun _ => documented_store _ _ _).map _
  | getOrAdd key default =>
    exact ((documented_demandStorable _).bind fun _ => documented_getOrAdd _ _ _).map _
  | exchange key datum => exact (documented_exchange entries key datum).map _
  | get key type => exact (documented_get? entries key type).bind fun _ => .ok _
  | _ => exact .ok _

end Entries

/-! ### Requests -/

/-- Everything that can be asked of a map. -/
inductive Request where
  | perform (operation : Operation)
  | header
  | listing (keyText : Bytes → String)

namespace Operation

/-- The operation would store a value of a type that no block can hold aligned. -/
def OverAligned : Operation → Prop
  | add _ datum | addOrSet _ datum | getOrAdd _ datum => blockAlign < datum.type.align
  | _ => False

end Operation

namespace Request

def run {Buffer : Type} [Host Buffer] (key : KeyType) : Request → Store Buffer Unit
  | .perform operation => discard (operation.run key)
  | .header => discard UntypedMap.header
  | .listing keyText => discard (UntypedMap.listing key keyText)

/-- The request brings keys of the key type; its types are known, or cannot be stored. -/
def Fits (known : ElementType → Prop) (key : KeyType) : Request → Prop
  | .perform operation => operation.Fits known key ∨ operation.OverAligned
  | _ => True

end Request

variable {Buffer : Type} [Host Buffer] {known : ElementType → Prop} {key : KeyType}
  {site : Site Buffer} {image : Image} {entries : List Entry} {order : Nat → List Nat}

/-- The site holds a map. -/
def Sound (known : ElementType → Prop) (key : KeyType) (site : Site Buffer) : Prop :=
  ∃ entries, Carries known key site entries

theorem Holds.sound (holds : Holds known key site image entries order) : Sound known key site :=
  ⟨entries, holds.carries⟩

/-- A value that cannot be aligned is refused before anything else is looked at. -/
theorem Operation.OverAligned.run_eq {operation : Operation} (unaligned : operation.OverAligned) :
    ∃ type, operation.run key site = .error (.misuse (.overAligned type)) site := by
  cases operation with
  | add entryKey datum | addOrSet entryKey datum | getOrAdd entryKey datum =>
    have above : ¬ datum.type.align ≤ blockAlign := Nat.not_le_of_lt unaligned
    refine ⟨datum.type, ?_⟩
    simp only [Operation.run, UntypedMap.add, UntypedMap.addOrSet, UntypedMap.getOrAdd,
      demandStorable, Edit.run_map, Edit.run_bind, demand_of_not above, Checked.bind_error,
      Edit.run_lift_error]
  | _ => exact absurd unaligned id

namespace Holds

variable [LawfulHost Buffer] (wellFormed : key.toElementType.WellFormed)
  (holds : Holds known key site image entries order)

omit [LawfulHost Buffer] in
include holds in
theorem run_listing (keyText : Bytes → String) :
    ∃ text, listing key keyText site = .ok text site := by
  simp only [listing, Edit.run_bind, holds.run_header, holds.run_keys, Edit.run_pure]
  exact ⟨_, rfl⟩

include wellFormed holds

theorem safe_operation (types : AlignedTypes known) {operation : Operation}
    (fits : operation.Fits known key ∨ operation.OverAligned) :
    Store.Safe (Sound known key) site (operation.run key) := by
  rcases fits with fits | unaligned
  · exact .of_performs (holds.performs wellFormed types fits)
      (Entries.documented_perform operation entries)
      fun later changed carries _ => ⟨changed, carries⟩
  · obtain ⟨type, run⟩ := @Operation.OverAligned.run_eq _ _ key site operation unaligned
    exact .of_error run trivial holds.sound

/-- Whatever is asked of a map leads to a map again. -/
theorem safe (types : AlignedTypes known) {request : Request} (fits : request.Fits known key) :
    Store.Safe (Sound known key) site (request.run key) := by
  cases request with
  | perform operation => exact (holds.safe_operation wellFormed types fits).discard
  | header => exact (Store.Safe.of_ok holds.run_header holds.sound).discard
  | listing keyText =>
    obtain ⟨text, run⟩ := holds.run_listing keyText
    exact (Store.Safe.of_ok run holds.sound).discard

/-! ### Attaching -/

omit [LawfulHost Buffer] in
/-- The map in a block can be attached to. -/
theorem run_attach : attach key site = .ok () site := by
  have framed := holds.represents.framed
  have placed := Layout.placed_of_compute wellFormed framed.computed
  have long : headerLength ≤ site.bytes.size := by
    rw [holds.size_eq]
    exact placed.header_le
  have whole : image.layout.total ≤ site.bytes.size := Nat.le_of_eq holds.size_eq.symm
  have recorded : Layout.ofHeader key.toElementType image.header = .ok image.layout :=
    recorded_eq_ok.mpr framed.computed
  simp only [attach, Edit.run_bind, Store.run_bytes, demand_of long, Edit.run_lift_ok,
    holds.load_header, demand_of framed.header.magic, demand_of framed.header.keySize, recorded,
    demand_of whole]

end Holds

/-! ### Creation -/

/-- A map that cannot be created leaves its block as it was. It fails because the block is in use,
because no block suits the type of its keys, or for want of a resource. -/
theorem init_failsOnly [LawfulHost Buffer] (wellFormed : key.toElementType.WellFormed)
    (sizing : Sizing) (site : Site Buffer) {allowed : Failure → Prop}
    (storage : ∀ failure : Failure, failure.IsStorage → allowed failure)
    (inUse : site.bytes.size ≠ 0 → allowed (.misuse (.blockInUse .untypedMap site.bytes.size)))
    (alignment : blockAlign < key.align → allowed (.misuse (.arrayAlignment key.align))) :
    Store.Withdraws allowed site (init key sizing) := by
  have extent (what : Quantity) (_ : what.IsExtent) := storage _ (Failure.isStorage_overflow what)
  unfold init
  refine .read Store.run_length (.check (.demand _ inUse) fun _ isEmpty =>
    .check (bounded_grownCapacity.weaken storage) fun capacity grown =>
    .check (bounded_bucketCapacityFor.weaken storage) fun buckets isBuckets => ?_)
  rw [lift_initialData]
  refine .check ((bounded_initialData sizing).weaken storage) fun dataCapacity grownData =>
    .check (Layout.failsOnly_compute extent alignment) fun layout computed =>
    .check ((bounded_toWord32 _ _).weaken storage) fun _ isCapacity =>
    .check ((bounded_toWord32 _ _).weaken storage) fun _ isBucketCapacity =>
    .check ((bounded_toWord32 _ _).weaken storage) fun _ isDataCapacity =>
    .check ((bounded_toWord32 _ _).weaken storage) fun _ isKeySize =>
    .resize storage fun buffer resized => ?_
  obtain ⟨-, rfl⟩ := toWord32_eq_ok.mp isCapacity
  obtain ⟨-, rfl⟩ := toWord32_eq_ok.mp isBucketCapacity
  obtain ⟨-, rfl⟩ := toWord32_eq_ok.mp isDataCapacity
  obtain ⟨keySize, rfl⟩ := toWord32_eq_ok.mp isKeySize
  have reached := (IsCapacity.of_grown grown).1
  obtain rfl : 2 * capacity = buckets :=
    Except.ok.inj ((bucketCapacityFor_eq reached).symm.trans isBuckets)
  obtain ⟨written, later, -, runWrite, runClear, -⟩ :=
    @run_emptied _ _ (fun _ => False) key (site.withBuffer buffer) _ wellFormed _
      (Header.regular_initial reached (isArenaCapacity_of_initialData grownData) keySize) rfl
      layout computed (LawfulHost.size_resize site.buffer buffer layout.total resized)
  unfold Header.initial at runWrite
  refine ⟨(), later, ?_⟩
  rw [Edit.run_bind, runWrite]
  exact runClear

theorem init_withdraws [LawfulHost Buffer] (wellFormed : key.toElementType.WellFormed)
    (sizing : Sizing) (site : Site Buffer) :
    Store.Withdraws Failure.Documented site (init key sizing) :=
  init_failsOnly wellFormed sizing site (fun _ => Failure.IsStorage.documented) (fun _ => trivial) id

end PackedStore.UntypedMap
