/-
This file says what an untyped map has to keep account of so that all that it does
is determined: its header, its entries and the places of their values in the arena.
Every operation has a plan on such ledgers, which knows nothing of bytes, hash
tables and hosts, except for the lengths that it asks a host for.
-/

import PackedStore.Proofs.Host.Scripts
import PackedStore.Proofs.UntypedMap.Simulation

namespace PackedStore.UntypedMap

/-- A map as far as it decides on what comes next. -/
structure Ledger where
  header : Header
  entries : List Entry
  /-- For every entry, the word of the arena where its value starts, or zero if the value stands in
  the word of its slot. -/
  places : List Nat

namespace Ledger

/-- The ledger of a new map. -/
def initial (key : KeyType) (capacity dataCapacity log2MinGrowth : Nat) : Ledger :=
  ⟨.initial key capacity dataCapacity log2MinGrowth, [], []⟩

/-- The ledger with one more entry. -/
def push (ledger : Ledger) (entryKey : Bytes) (value : Value) (place : Nat) : Ledger where
  header := { ledger.header with count := ledger.entries.length + 1 }
  entries := ledger.entries ++ [⟨entryKey, value⟩]
  places := ledger.places ++ [place]

/-- The ledger with another value in the place of the one in a slot. -/
def put (ledger : Ledger) (slot : Nat) (value : Value) : Ledger :=
  { ledger with entries := Entries.put ledger.entries slot value }

/-- The ledger with the value of a slot at another place. -/
def move (ledger : Ledger) (slot place : Nat) : Ledger :=
  { ledger with places := ledger.places.set slot place }

/-- The ledger with more words of the arena in use. -/
def raise (ledger : Ledger) (dataAllocated : Nat) : Ledger :=
  { ledger with header := ledger.header.withData ledger.header.dataCapacity dataAllocated }

/-- A typed access finds the value in a slot at a place that suits the type. -/
def read (ledger : Ledger) (slot : Nat) (type : ElementType) : Checked Bytes := do
  let content ← Entries.read ledger.entries slot type
  if isLarge type.size then
    require ((← isAligned (ledger.places.getD slot 0) type.align) = true) .misaligned
  return content

end Ledger

/-! ### Plans -/

namespace Ledger

variable (key : KeyType)

/-- More slots need a longer block. -/
def grow (capacity : Nat) : Plan Ledger Unit := do
  let ledger ← get
  let layout ←
    Layout.compute key.toElementType capacity (2 * capacity) ledger.header.dataCapacity
  Plan.ask layout.total
  set { ledger with header := ledger.header.resized capacity }

def setCapacity (capacity : Nat) : Plan Ledger Unit := do
  let header := (← get).header
  if header.capacity < capacity then
    grow key (← grownCapacity header.count capacity header.log2MinGrowth)

/-- More arena needs a longer block. -/
def ensureData (required : Nat) : Plan Ledger Unit := do
  let ledger ← get
  let header := ledger.header
  if header.dataCapacity < required then
    let dataCapacity ← grownDataCapacity header.dataCapacity required header.log2MinGrowth
    let layout ←
      Layout.compute key.toElementType header.capacity (2 * header.capacity) dataCapacity
    Plan.ask layout.total
    set { ledger with header := header.withData dataCapacity header.dataAllocated }

def reserveData (additional : Nat) : Plan Ledger Unit := do
  let header := (← get).header
  let required ← orFail (size? (header.dataAllocated + additional)) (.overflow .arenaCapacity)
  ensureData key required

/-- A value in the arena takes words behind those in use, aligned as it needs. -/
def allocate (size align : Nat) : Plan Ledger Nat := do
  let header := (← get).header
  let allocation ←
    orFail (planAllocation header.dataAllocated size align) (.overflow .arenaCapacity)
  ensureData key allocation.stop
  modify fun ledger => ledger.raise allocation.stop
  return allocation.offset

def makeRoom : Plan Ledger Unit := do
  let header := (← get).header
  if header.count = header.capacity then
    grow key (← nextCapacity header.count header.capacity header.log2MinGrowth)

def takeRoom (payload : Payload) : Plan Ledger Nat :=
  if isLarge payload.bytes.size then allocate key payload.bytes.size payload.align else pure 0

def fillSlot (entryKey : Bytes) (payload : Payload) : Plan Ledger Nat := do
  let place ← takeRoom key payload
  let ledger ← get
  set (ledger.push entryKey payload.value place)
  return ledger.entries.length

/-- A new entry takes a slot, and words of the arena if its value is large. -/
def insertNew (entryKey : Bytes) (payload : Payload) : Plan Ledger Nat := do
  demand (payload.bytes.size < 2 ^ 16) (.valueTooLarge payload.bytes.size)
  makeRoom key
  fillSlot key entryKey payload

/-- A value in the arena moves if its place does not suit the new one. -/
def replace (slot : Nat) (payload : Payload) : Plan Ledger Unit := do
  let ledger ← get
  let old ← orFail (Entries.stored ledger.entries slot) (.fault .outOfRange)
  let size := payload.bytes.size
  demand (old.bytes.size = size) (.sizeMismatch slot old.bytes.size payload.type size)
  if size ≤ 4 ∨ payload.align ∣ ledger.places.getD slot 0 * wordSize then
    modify fun ledger => ledger.put slot payload.value
  else
    let place ← allocate key size payload.align
    modify fun ledger => (ledger.put slot payload.value).move slot place

def store (entryKey : Bytes) (payload : Payload) : Plan Ledger Unit := do
  let ledger ← get
  match Entries.find ledger.entries entryKey with
  | some slot => replace key slot payload
  | none => discard (insertNew key entryKey payload)

def insertUnique (entryKey : Bytes) (payload : Payload) : Plan Ledger Nat := do
  let ledger ← get
  demand (Entries.find ledger.entries entryKey = none) .duplicateKey
  insertNew key entryKey payload

def getOrAdd (entryKey : Bytes) (default : Datum) : Plan Ledger Bytes := do
  let ledger ← get
  let slot ← match Entries.find ledger.entries entryKey with
    | some slot => pure slot
    | none => insertNew key entryKey default.payload
  let ledger ← get
  ledger.read slot default.type

omit key in
def exchange (wanted : Bytes) (datum : Datum) : Plan Ledger (Option Bytes) := do
  let ledger ← get
  match Entries.find ledger.entries wanted with
  | none => return none
  | some slot =>
    let old ← ledger.read slot datum.type
    set (ledger.put slot datum.payload.value)
    return some old

omit key in
def get? (wanted : Bytes) (type : ElementType) : Plan Ledger (Option Bytes) := do
  let ledger ← get
  match Entries.find ledger.entries wanted with
  | none => return none
  | some slot => return some (← ledger.read slot type)

omit key in
/-- No entry is left, and the capacities stay. -/
def clear : Plan Ledger Unit :=
  modify fun ledger => ⟨ledger.header.emptied, [], []⟩

end Ledger

/-- What an operation does to the ledger of a map. -/
def Operation.plan (key : KeyType) : Operation → Plan Ledger Answer
  | add entryKey datum => .number <$> do
    demandStorable datum.type
    Ledger.insertUnique key entryKey datum.payload
  | addBytes entryKey tag content => .number <$> do
    demand (content.size ≠ 0) .emptyValue
    Ledger.insertUnique key entryKey (.raw tag content)
  | addOrSet entryKey datum => (fun _ => .done) <$> do
    demandStorable datum.type
    Ledger.store key entryKey datum.payload
  | addOrSetBytes entryKey tag content => (fun _ => .done) <$> do
    demand (content.size ≠ 0) .emptyValue
    Ledger.store key entryKey (.raw tag content)
  | getOrAdd entryKey default => (fun content => .value (some content)) <$> do
    demandStorable default.type
    Ledger.getOrAdd key entryKey default
  | exchange wanted datum => .value <$> Ledger.exchange wanted datum
  | setCapacity capacity => (fun _ => .done) <$> Ledger.setCapacity key capacity
  | reserveData additional => (fun _ => .done) <$> Ledger.reserveData key additional
  | clear => (fun _ => .done) <$> Ledger.clear
  | get wanted type => .value <$> Ledger.get? wanted type
  | getBytes wanted => Plan.tell fun ledger => .ok <| .stored <|
    (Entries.lookup ledger.entries wanted).map fun value => (value.tag, value.bytes)
  | find wanted => Plan.tell fun ledger => .ok (.slot (Entries.find ledger.entries wanted))
  | contains wanted =>
    Plan.tell fun ledger => .ok (.flag (Entries.find ledger.entries wanted).isSome)
  | keys => Plan.tell fun ledger => .ok (.keys (ledger.entries.map Entry.key))
  | count => Plan.tell fun ledger => .ok (.number ledger.header.count)

/-! ### What becomes of ledgers -/

namespace Ledger

open Script (granted_bind_eq_ok)

variable {key : KeyType} {ledger later : Ledger}

/-- Every entry has a place. -/
def Even (ledger : Ledger) : Prop :=
  ledger.places.length = ledger.entries.length

/-- A place is aligned for a payload that goes to the arena, if anything can be aligned for it. -/
def AlignedAt (payload : Payload) (place : Nat) : Prop :=
  IsAlign payload.align → 4 < payload.bytes.size → payload.align ∣ place * wordSize

theorem stored_push (ledger : Ledger) (entryKey : Bytes) (value : Value) (place : Nat) :
    Entries.stored (ledger.push entryKey value place).entries ledger.entries.length = some value := by
  show Entries.stored (ledger.entries ++ [_]) _ = _
  rw [Entries.stored_concat, Function.update_self]

/-- The value of a new entry can be read as what it was stored as. -/
theorem read_push {datum : Datum} (supported : IsAlign datum.type.align) (even : ledger.Even)
    (entryKey : Bytes) {place : Nat} (aligned : AlignedAt datum.payload place) :
    (ledger.push entryKey datum.payload.value place).read ledger.entries.length datum.type =
      .ok datum.bytes := by
  have isPlace : (ledger.push entryKey datum.payload.value place).places.getD
      ledger.entries.length 0 = place := by
    show (ledger.places ++ [place]).getD _ 0 = place
    rw [← even, List.getD_eq_getElem?_getD, List.getElem?_concat_length, Option.getD_some]
  rw [read, Entries.read_of_stored (stored_push ledger entryKey _ place), datum.readAs_value,
    Checked.bind_ok, isPlace, isAligned_eq supported.pos]
  by_cases large : 4 < datum.type.size
  · have suits : datum.type.align ∣ place * wordSize :=
      aligned supported (datum.size_bytes.symm ▸ large)
    rw [if_pos (isLarge_iff.mpr large), Checked.bind_ok, require_of (decide_eq_true suits)]
    rfl
  · rw [if_neg fun isLarge => large (isLarge_iff.mp isLarge)]
    rfl

/-- The header after room has been made for one more slot. -/
def roomy (header : Header) : Header :=
  header.resized (roomyCapacity header.count header.capacity)

/-- The header after room has been made for a number of words, some of which are in use. -/
def widened (header : Header) (required dataAllocated : Nat) : Header :=
  header.withData (wideCapacity header.log2MinGrowth header.dataCapacity required) dataAllocated

/-- The header after words of the arena have been put into use up to a stop. -/
def taking (header : Header) (stop : Nat) : Header :=
  widened header stop stop

theorem taking_self {header : Header} (regular : header.Regular key) :
    taking header header.dataAllocated = header := by
  rw [taking, widened, wideCapacity, if_neg (Nat.not_lt_of_le regular.allocated_le),
    Header.withData]

theorem granted_grow {capacity : Nat}
    (ends : ((grow key capacity).run ledger).granted = (.ok (), later)) :
    later = { ledger with header := ledger.header.resized capacity } := by
  simp only [grow, Plan.run_bind, Plan.run_get, Plan.run_lift, Plan.run_ask, Plan.run_set,
    Script.bind_ok, Script.bind_asks, granted_bind_eq_ok, Script.granted, Prod.mk.injEq] at ends
  obtain ⟨layout, _, ⟨-, rfl⟩, -, rfl⟩ := ends
  rfl

theorem granted_makeRoom (regular : ledger.header.Regular key)
    (ends : ((makeRoom key).run ledger).granted = (.ok (), later)) :
    later = { ledger with header := roomy ledger.header } ∧
      (roomy ledger.header).Regular key ∧ ledger.header.count < (roomy ledger.header).capacity := by
  have fits (smaller : ledger.header.count = ledger.header.capacity →
      ledger.header.capacity ≠ maxCapacity) : (roomy ledger.header).Regular key ∧
      ledger.header.count < (roomy ledger.header).capacity := by
    obtain ⟨reached, room⟩ := roomyCapacity_reached regular.reached regular.count_le smaller
    exact ⟨regular.resized reached le_roomyCapacity, room⟩
  simp only [makeRoom, Plan.run_bind, Plan.run_get, Script.bind_ok] at ends
  by_cases full : ledger.header.count = ledger.header.capacity
  · rw [if_pos full, nextCapacity_eq regular.reached (Nat.le_of_eq full)] at ends
    by_cases largest : ledger.header.capacity = maxCapacity
    · rw [if_pos largest] at ends
      exact absurd (congrArg Prod.fst ends) (by simp [Script.granted])
    · rw [if_neg largest, Plan.run_bind, Plan.run_lift, Script.bind_ok] at ends
      refine ⟨?_, fits fun _ => largest⟩
      rw [roomy, roomyCapacity, if_pos full]
      exact granted_grow ends
  · rw [if_neg full] at ends
    refine ⟨?_, fits fun isFull => absurd isFull full⟩
    rw [roomy, roomyCapacity, if_neg full, Header.resized, ← regular.bucketCapacity]
    exact (congrArg Prod.snd ends).symm

theorem granted_ensureData (regular : ledger.header.Regular key) {required : Nat}
    (ends : ((ensureData key required).run ledger).granted = (.ok (), later)) :
    later = { ledger with
      header := widened ledger.header required ledger.header.dataAllocated } ∧
      required ≤ (widened ledger.header required ledger.header.dataAllocated).dataCapacity := by
  simp only [ensureData, Plan.run_bind, Plan.run_get, Script.bind_ok] at ends
  by_cases more : ledger.header.dataCapacity < required
  · have step := regular.reached.le_log2
    rw [widened, wideCapacity, if_pos more]
    rw [if_pos more] at ends
    by_cases large : maxCapacity < required
    · rw [grownDataCapacity_eq_error step regular.dataReached more large] at ends
      exact absurd (congrArg Prod.fst ends) (by simp [Script.granted])
    · rw [grownDataCapacity_eq step regular.dataReached more (Nat.le_of_not_lt large)] at ends
      simp only [Plan.run_bind, Plan.run_lift, Plan.run_ask, Plan.run_set,
        Script.bind_ok, Script.bind_asks, granted_bind_eq_ok, Script.granted, Prod.mk.injEq] at ends
      obtain ⟨layout, _, ⟨-, rfl⟩, -, rfl⟩ := ends
      exact ⟨rfl, ceilLog2_le_iff.mp (Nat.le_max_right _ _)⟩
  · rw [if_neg more] at ends
    rw [widened, wideCapacity, if_neg more]
    exact ⟨(congrArg Prod.snd ends).symm, Nat.le_of_not_lt more⟩

theorem granted_allocate (regular : ledger.header.Regular key) {size align place : Nat}
    (large : isLarge size = true)
    (ends : ((allocate key size align).run ledger).granted = (.ok place, later)) :
    (IsAlign align → align ∣ place * wordSize) ∧ later = { ledger with
      header := taking ledger.header (stopBehind ledger.header.dataAllocated size align) } := by
  simp only [allocate, Plan.run_bind, Plan.run_get, Plan.run_lift, Plan.run_modify, Plan.run_pure,
    Script.bind_ok, granted_bind_eq_ok, Script.granted, Prod.mk.injEq] at ends
  obtain ⟨allocation, _, ⟨planned, rfl⟩, _, wide, ensured, isPlace, rfl⟩ := ends
  obtain ⟨rfl, -⟩ := granted_ensureData regular ensured
  obtain rfl := Except.ok.inj isPlace
  have isPlanned := orFail_eq_ok.mp planned
  refine ⟨fun supported => (near_of_planAllocation supported isPlanned).2.2, ?_⟩
  rw [← stop_of_planAllocation isPlanned large]
  rfl

theorem granted_fillSlot (regular : ledger.header.Regular key) {entryKey : Bytes}
    {payload : Payload} {slot : Nat}
    (ends : ((fillSlot key entryKey payload).run ledger).granted = (.ok slot, later)) :
    slot = ledger.entries.length ∧ ∃ place, AlignedAt payload place ∧ later = push { ledger with
      header := taking ledger.header
        (stopBehind ledger.header.dataAllocated payload.bytes.size payload.align) }
      entryKey payload.value place := by
  rw [fillSlot, Plan.run_bind] at ends
  obtain ⟨place, taken, took, ends⟩ := granted_bind_eq_ok.mp ends
  suffices room : AlignedAt payload place ∧ taken = { ledger with
      header := taking ledger.header
        (stopBehind ledger.header.dataAllocated payload.bytes.size payload.align) } by
    obtain ⟨suits, rfl⟩ := room
    obtain ⟨isSlot, rfl⟩ := Prod.mk.inj ends
    exact ⟨(Except.ok.inj isSlot).symm, place, suits, rfl⟩
  unfold takeRoom at took
  by_cases large : isLarge payload.bytes.size = true
  · rw [if_pos large] at took
    obtain ⟨aligned, isTaken⟩ := granted_allocate regular large took
    exact ⟨fun supported _ => aligned supported, isTaken⟩
  · rw [if_neg large] at took
    rw [stopBehind, if_neg large, taking_self regular]
    exact ⟨fun _ isLarge => absurd (isLarge_iff.mpr isLarge) large, (Prod.mk.inj took).2.symm⟩

/-- A new entry comes behind all others. -/
theorem granted_insertNew (regular : ledger.header.Regular key) {entryKey : Bytes}
    {payload : Payload} {slot : Nat}
    (ends : ((insertNew key entryKey payload).run ledger).granted = (.ok slot, later)) :
    slot = ledger.entries.length ∧ ∃ place, AlignedAt payload place ∧ later = push { ledger with
      header := taking (roomy ledger.header)
        (stopBehind ledger.header.dataAllocated payload.bytes.size payload.align) }
      entryKey payload.value place := by
  simp only [insertNew, Plan.run_bind, Plan.run_lift, granted_bind_eq_ok, Script.granted,
    Prod.mk.injEq] at ends
  obtain ⟨_, _, ⟨-, rfl⟩, _, roomy, made, filled⟩ := ends
  obtain ⟨rfl, regularRoomy, room⟩ := granted_makeRoom regular made
  exact granted_fillSlot regularRoomy filled

end Ledger

/-! ### Sites -/

/-- The large values of an image start at the places. -/
structure Image.Located (image : Image) (entries : List Entry) (places : List Nat) : Prop where
  length_eq : places.length = entries.length
  place : ∀ slot value word, image.cells.Large (Entries.stored entries) slot value word →
    places[slot]? = some word.toNat

/-- The map in the block of the site has the ledger. -/
def Records (key : KeyType) {Buffer : Type} [Host Buffer] (site : Site Buffer) (ledger : Ledger) :
    Prop :=
  ∃ image order, Holds (fun _ => False) key site image ledger.entries order ∧
    image.header = ledger.header ∧ image.Located ledger.entries ledger.places

end PackedStore.UntypedMap
