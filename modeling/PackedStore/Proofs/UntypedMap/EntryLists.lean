/-
This file holds lists of entries, which say what an untyped map means without
buckets, words and arenas: the entries in the order of their insertion, each in
the slot of its position. An entry comes behind all others, and only its value can
change.
-/

import PackedStore.Proofs.Slots.ValueCells

namespace PackedStore.UntypedMap

/-- A key with its value. -/
structure Entry where
  key : Bytes
  value : Value
deriving DecidableEq, Repr

namespace Entries

/-- The key in a slot. -/
def cell (entries : List Entry) (slot : Nat) : Option Bytes :=
  entries[slot]?.map Entry.key

/-- The value in a slot. -/
def stored (entries : List Entry) (slot : Nat) : Option Value :=
  entries[slot]?.map Entry.value

/-- The slot of a key. -/
def find (entries : List Entry) (key : Bytes) : Option Nat :=
  entries.findIdx? fun entry => entry.key = key

/-- The value of a key. -/
def lookup (entries : List Entry) (key : Bytes) : Option Value :=
  (find entries key).bind (stored entries)

/-- The entries with another value in a slot. -/
def put (entries : List Entry) (slot : Nat) (value : Value) : List Entry :=
  entries.modify slot fun entry => { entry with value }

/-- No key is there twice. -/
def Distinct (entries : List Entry) : Prop :=
  (entries.map Entry.key).Nodup

/-! ### Operations -/

/-- The value of a slot, which must have been stored as a value of the type. -/
def read (entries : List Entry) (slot : Nat) (type : ElementType) : Checked Bytes := do
  (← orFail (stored entries slot) (.fault .outOfRange)).readAs (.slot slot) type

/-- The value of a key, which must have been stored as a value of the type. -/
def get? (entries : List Entry) (key : Bytes) (type : ElementType) : Checked (Option Bytes) :=
  match find entries key with
  | none => return none
  | some slot => some <$> read entries slot type

/-- Adds an entry behind all others and answers its slot. The value must not be too large. -/
def insert (entries : List Entry) (key : Bytes) (payload : Payload) :
    Checked (Nat × List Entry) := do
  demand (payload.bytes.size < 2 ^ 16) (.valueTooLarge payload.bytes.size)
  return (entries.length, entries ++ [⟨key, payload.value⟩])

/-- Adds an entry whose key must not be there. -/
def insertUnique (entries : List Entry) (key : Bytes) (payload : Payload) :
    Checked (Nat × List Entry) := do
  demand (find entries key = none) .duplicateKey
  insert entries key payload

/-- Puts another value into a slot, which must have one of the same size. -/
def replace (entries : List Entry) (slot : Nat) (payload : Payload) :
    Checked (Unit × List Entry) := do
  let size := (← orFail (stored entries slot) (.fault .outOfRange)).bytes.size
  demand (size = payload.bytes.size) (.sizeMismatch slot size payload.type payload.bytes.size)
  return ((), put entries slot payload.value)

/-- Stores a value for a key, whether it is there or not. -/
def store (entries : List Entry) (key : Bytes) (payload : Payload) :
    Checked (Unit × List Entry) :=
  match find entries key with
  | some slot => replace entries slot payload
  | none => Prod.map (fun _ => ()) id <$> insert entries key payload

/-- The value of a key, which is added with a default value if it is not there. -/
def getOrAdd (entries : List Entry) (key : Bytes) (default : Datum) :
    Checked (Bytes × List Entry) :=
  match find entries key with
  | some slot => (·, entries) <$> read entries slot default.type
  | none => Prod.map (fun _ => default.bytes) id <$> insert entries key default.payload

/-- Replaces the value of a key by another one of its type and answers the old one. -/
def exchange (entries : List Entry) (key : Bytes) (datum : Datum) :
    Checked (Option Bytes × List Entry) :=
  match find entries key with
  | none => return (none, entries)
  | some slot => do
    let old ← read entries slot datum.type
    return (some old, put entries slot datum.payload.value)

variable {entries : List Entry} {key : Bytes} {slot : Nat} {value : Value}

theorem read_of_stored (there : stored entries slot = some value) (type : ElementType) :
    read entries slot type = value.readAs (.slot slot) type := by
  rw [read, there, orFail, Checked.bind_ok]

theorem insert_eq_ok {payload : Payload} {changed : List Entry} :
    insert entries key payload = .ok (slot, changed) ↔ payload.bytes.size < 2 ^ 16 ∧
      slot = entries.length ∧ changed = entries ++ [⟨key, payload.value⟩] := by
  simp only [insert, Checked.bind_eq_ok, demand_eq_ok, pure, Except.pure, Except.ok.injEq,
    Prod.mk.injEq]
  constructor
  · rintro ⟨-, size, rfl, rfl⟩
    exact ⟨size, rfl, rfl⟩
  · rintro ⟨size, rfl, rfl⟩
    exact ⟨(), size, rfl, rfl⟩

/-! ### Searching -/

theorem cell_eq_some : cell entries slot = some key ↔ ∃ value, entries[slot]? = some ⟨key, value⟩ := by
  rw [cell, Option.map_eq_some_iff]
  constructor
  · rintro ⟨entry, there, rfl⟩
    exact ⟨entry.value, there⟩
  · rintro ⟨value, there⟩
    exact ⟨_, there, rfl⟩

theorem stored_eq_some :
    stored entries slot = some value ↔ ∃ key, entries[slot]? = some ⟨key, value⟩ := by
  rw [stored, Option.map_eq_some_iff]
  constructor
  · rintro ⟨entry, there, rfl⟩
    exact ⟨entry.key, there⟩
  · rintro ⟨key, there⟩
    exact ⟨_, there, rfl⟩

theorem stored_lt (there : stored entries slot = some value) : slot < entries.length := by
  obtain ⟨key, there⟩ := stored_eq_some.mp there
  exact (List.getElem?_eq_some_iff.mp there).1

theorem Distinct.cell_inj (distinct : Distinct entries) {other : Nat}
    (here : cell entries slot = some key) (there : cell entries other = some key) :
    slot = other := by
  rw [cell, ← List.getElem?_map] at here there
  exact (List.getElem?_inj (List.getElem?_eq_some_iff.mp here).1 distinct).mp
    (here.trans there.symm)

theorem cell_of_find (found : find entries key = some slot) : cell entries slot = some key := by
  obtain ⟨inside, same, -⟩ := List.findIdx?_eq_some_iff_getElem.mp found
  rw [cell, List.getElem?_eq_getElem inside, Option.map_some, of_decide_eq_true same]

/-- A search gives the slot of the entry with the key. -/
theorem Distinct.find_eq_some (distinct : Distinct entries) :
    find entries key = some slot ↔ cell entries slot = some key := by
  refine ⟨cell_of_find, fun there => ?_⟩
  have found : (find entries key).isSome := by
    obtain ⟨value, isEntry⟩ := cell_eq_some.mp there
    rw [find, List.findIdx?_isSome, List.any_eq_true]
    exact ⟨_, List.mem_of_getElem? isEntry, decide_eq_true rfl⟩
  obtain ⟨other, isOther⟩ := Option.isSome_iff_exists.mp found
  rw [isOther, distinct.cell_inj (cell_of_find isOther) there]

theorem Distinct.not_cell (distinct : Distinct entries) (absent : find entries key = none)
    (slot : Nat) : cell entries slot ≠ some key := by
  intro there
  rw [distinct.find_eq_some.mpr there] at absent
  exact absurd absent (by simp)

/-- A key that is found has a value. -/
theorem exists_stored (found : find entries key = some slot) :
    ∃ value, stored entries slot = some value := by
  obtain ⟨value, there⟩ := cell_eq_some.mp (cell_of_find found)
  exact ⟨value, stored_eq_some.mpr ⟨key, there⟩⟩

theorem Distinct.lookup_eq_some (distinct : Distinct entries) :
    lookup entries key = some value ↔ ∃ slot : Nat, entries[slot]? = some ⟨key, value⟩ := by
  rw [lookup, Option.bind_eq_some_iff]
  refine exists_congr fun slot => ?_
  rw [distinct.find_eq_some]
  constructor
  · rintro ⟨isKey, isValue⟩
    obtain ⟨other, here⟩ := cell_eq_some.mp isKey
    obtain ⟨second, there⟩ := stored_eq_some.mp isValue
    cases here.symm.trans there
    exact here
  · exact fun there => ⟨cell_eq_some.mpr ⟨value, there⟩, stored_eq_some.mpr ⟨key, there⟩⟩

/-! ### A new entry -/

theorem getElem?_concat (entries : List Entry) (entry : Entry) (slot : Nat) :
    (entries ++ [entry])[slot]? = if slot = entries.length then some entry else entries[slot]? := by
  by_cases last : slot = entries.length
  · rw [if_pos last, last, List.getElem?_concat_length]
  · rw [if_neg last]
    by_cases inside : slot < entries.length
    · rw [List.getElem?_append_left inside]
    · rw [List.getElem?_eq_none (by simp; omega), List.getElem?_eq_none (by omega)]

theorem cell_concat (entries : List Entry) (entry : Entry) :
    cell (entries ++ [entry]) =
      Function.update (cell entries) entries.length (some entry.key) := by
  funext slot
  rw [cell, getElem?_concat]
  by_cases last : slot = entries.length
  · rw [if_pos last, last, Function.update_self, Option.map_some]
  · rw [if_neg last, Function.update_of_ne last, cell]

theorem stored_concat (entries : List Entry) (entry : Entry) :
    stored (entries ++ [entry]) =
      Function.update (stored entries) entries.length (some entry.value) := by
  funext slot
  rw [stored, getElem?_concat]
  by_cases last : slot = entries.length
  · rw [if_pos last, last, Function.update_self, Option.map_some]
  · rw [if_neg last, Function.update_of_ne last, stored]

theorem Distinct.concat (distinct : Distinct entries) {entry : Entry}
    (absent : ∀ slot, cell entries slot ≠ some entry.key) : Distinct (entries ++ [entry]) := by
  rw [Distinct, List.map_append, List.map_singleton, List.nodup_append]
  refine ⟨distinct, List.nodup_cons.mpr ⟨List.not_mem_nil, List.nodup_nil⟩, ?_⟩
  rintro key inEntries other inLast rfl
  obtain rfl := List.mem_singleton.mp inLast
  obtain ⟨slot, there⟩ := List.getElem?_of_mem inEntries
  rw [List.getElem?_map] at there
  exact absent slot there

/-- A new entry changes the value of its own key only. -/
theorem Distinct.lookup_concat (distinct : Distinct entries) {entry : Entry}
    (absent : ∀ slot, cell entries slot ≠ some entry.key) (different : entry.key ≠ key) :
    lookup (entries ++ [entry]) key = lookup entries key := by
  refine Option.ext fun value => ?_
  rw [(distinct.concat absent).lookup_eq_some, distinct.lookup_eq_some]
  refine exists_congr fun slot => ?_
  rw [getElem?_concat]
  by_cases last : slot = entries.length
  · rw [if_pos last, last, List.getElem?_eq_none (Nat.le_refl _)]
    refine ⟨fun same => absurd (congrArg Entry.key (Option.some.inj same)) different, ?_⟩
    exact fun absurdity => absurd absurdity (by simp)
  · rw [if_neg last]

/-- A new key has the value that came with it. -/
theorem lookup_concat_self (absent : find entries key = none) (value : Value) :
    lookup (entries ++ [⟨key, value⟩]) key = some value := by
  have found : find (entries ++ [⟨key, value⟩]) key = some entries.length := by
    rw [find, List.findIdx?_append, ← find, absent, List.findIdx?_singleton,
      if_pos (decide_eq_true rfl)]
    exact congrArg some (Nat.zero_add _)
  rw [lookup, found, Option.bind_some, stored_concat, Function.update_self]

/-! ### Another value -/

theorem getElem?_put (slot other : Nat) (value : Value) :
    (put entries slot value)[other]? =
      if slot = other then entries[other]?.map fun entry => { entry with value }
      else entries[other]? := by
  rw [put, List.getElem?_modify]
  split <;> simp

theorem cell_put (entries : List Entry) (slot : Nat) (value : Value) :
    cell (put entries slot value) = cell entries := by
  funext other
  rw [cell, getElem?_put, cell]
  by_cases same : slot = other
  · rw [if_pos same, Option.map_map]
    rfl
  · rw [if_neg same]

theorem stored_put (inside : slot < entries.length) (value : Value) :
    stored (put entries slot value) = Function.update (stored entries) slot (some value) := by
  funext other
  rw [stored, getElem?_put]
  by_cases same : slot = other
  · rw [if_pos same, ← same, Function.update_self, List.getElem?_eq_getElem inside]
    rfl
  · rw [if_neg same, Function.update_of_ne fun equal => same equal.symm, stored]

theorem length_put (entries : List Entry) (slot : Nat) (value : Value) :
    (put entries slot value).length = entries.length :=
  List.length_modify ..

theorem map_key_put (entries : List Entry) (slot : Nat) (value : Value) :
    (put entries slot value).map Entry.key = entries.map Entry.key := by
  refine List.ext_getElem? fun other => ?_
  rw [List.getElem?_map, List.getElem?_map]
  exact congrFun (cell_put entries slot value) other

theorem Distinct.put (distinct : Distinct entries) (slot : Nat) (value : Value) :
    Distinct (put entries slot value) := by
  rw [Distinct, map_key_put]
  exact distinct

theorem find_put (entries : List Entry) (slot : Nat) (value : Value) (key : Bytes) :
    find (put entries slot value) key = find entries key := by
  have byKey (entries : List Entry) :
      find entries key = (entries.map Entry.key).findIdx? fun other => other = key := by
    rw [List.findIdx?_map]
    rfl
  rw [byKey, byKey, map_key_put]

/-- A key has the value that was put into its slot. -/
theorem lookup_put_self (found : find entries key = some slot) (value : Value) :
    lookup (put entries slot value) key = some value := by
  obtain ⟨old, there⟩ := exists_stored found
  rw [lookup, find_put, found, Option.bind_some, stored_put (stored_lt there), Function.update_self]

/-- Another value changes the value of its own key only. -/
theorem Distinct.lookup_put (distinct : Distinct entries) {other : Bytes}
    (there : cell entries slot = some other) (different : other ≠ key) (changed : Value) :
    lookup (Entries.put entries slot changed) key = lookup entries key := by
  refine Option.ext fun value => ?_
  rw [(distinct.put slot changed).lookup_eq_some, distinct.lookup_eq_some]
  refine exists_congr fun place => ?_
  rw [getElem?_put]
  by_cases same : slot = place
  · obtain ⟨old, isEntry⟩ := cell_eq_some.mp there
    subst same
    rw [if_pos rfl, isEntry]
    exact ⟨fun equal => absurd (congrArg Entry.key (Option.some.inj equal)) different,
      fun equal => absurd (congrArg Entry.key (Option.some.inj equal)) different⟩
  · rw [if_neg same]

end Entries

end PackedStore.UntypedMap
