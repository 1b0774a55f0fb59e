/-
This file keeps account of the arena of an untyped map: where the values of the keys
are in it, and how many of its words are in use. An operation other than clearing
leaves all accounts as they are, opens one more, or moves the value of one behind the
words in use, because the place of that value does not suit an alignment. Where an
operation fails, nothing has become of the accounts.
-/

import PackedStore.Proofs.UntypedMap.LedgerOperations

namespace PackedStore

/-- The words that a value can take in the arena, padding in front of it included. A small value
takes none. -/
def wordsTaken (size : Nat) : Nat :=
  if 4 < size then wordsFor size + 3 else 0

namespace UntypedMap

/-- Where the value of a key is. -/
structure Account where
  key : Bytes
  size : Nat
  /-- The word of the arena where the value starts, which says nothing about a small value. -/
  place : Nat
deriving DecidableEq, Repr

/-- The accounts of all keys in the order of their insertion. -/
structure Tally where
  accounts : List Account
  /-- The words of the arena in use. -/
  used : Nat
deriving DecidableEq, Repr

namespace Tally

/-- One more value is placed behind the words in use, if it is large. -/
inductive Opens (entryKey : Bytes) (size align : Nat) (before : Tally) : Tally → Prop where
  | intro {place stop : Nat} (suits : 4 < size → align ∣ place * wordSize)
      (within : stop ≤ before.used + wordsTaken size) :
      Opens entryKey size align before ⟨before.accounts ++ [⟨entryKey, size, place⟩], stop⟩

/-- A large value is placed anew, because its place does not suit an alignment. -/
inductive Moves (slot size align : Nat) (before : Tally) : Tally → Prop where
  | intro {account : Account} {place stop : Nat} (there : before.accounts[slot]? = some account)
      (isSize : account.size = size) (large : 4 < size)
      (unsuited : ¬ align ∣ account.place * wordSize) (suits : align ∣ place * wordSize)
      (within : stop ≤ before.used + wordsTaken size) :
      Moves slot size align before ⟨before.accounts.set slot { account with place }, stop⟩

/-- A value gives way to another one of its size, which needs an alignment. -/
inductive Settles (slot size align : Nat) (before : Tally) : Tally → Prop where
  | stays {account : Account} (there : before.accounts[slot]? = some account)
      (suits : 4 < size → align ∣ account.place * wordSize) : Settles slot size align before before
  | moves {after : Tally} (moves : before.Moves slot size align after) :
      Settles slot size align before after

/-- A value is stored for a key, which is in a slot already or is new. -/
structure Stores (before : Tally) (found : Option Nat) (entryKey : Bytes) (payload : Payload)
    (after : Tally) : Prop where
  supported : IsAlign payload.align
  either : found.elim (before.Opens entryKey payload.bytes.size payload.align after)
    fun slot => before.Settles slot payload.bytes.size payload.align after

/-- What an operation other than clearing does to the accounts. -/
inductive Step (before : Tally) : Tally → Prop where
  | kept : Step before before
  | opened {entryKey : Bytes} {size align : Nat} {after : Tally}
      (opens : before.Opens entryKey size align after) : Step before after
  | moved {slot size align : Nat} {after : Tally} (supported : IsAlign align)
      (moves : before.Moves slot size align after) : Step before after

/-- Storing a value is a step. -/
theorem Stores.step {found : Option Nat} {entryKey : Bytes} {payload : Payload}
    {before after : Tally} (stores : before.Stores found entryKey payload after) :
    before.Step after := by
  obtain ⟨supported, either⟩ := stores
  cases found with
  | none => exact .opened either
  | some slot =>
    cases either with
    | stays there suits => exact .kept
    | moves moves => exact .moved supported moves

end Tally

namespace Ledger

/-- The accounts of the entries of a ledger. -/
def accounts (ledger : Ledger) : List Account :=
  ledger.entries.zipWith (fun entry place => ⟨entry.key, entry.value.bytes.size, place⟩)
    ledger.places

/-- The accounts that a ledger keeps. -/
def tally (ledger : Ledger) : Tally :=
  ⟨ledger.accounts, ledger.header.dataAllocated⟩

/-- The ledger has the same values in the same places. -/
structure Keeps (base ledger : Ledger) : Prop where
  entries : ledger.entries = base.entries
  places : ledger.places = base.places
  used : ledger.header.dataAllocated = base.header.dataAllocated

variable {key : KeyType} {base ledger : Ledger}

theorem Keeps.refl (ledger : Ledger) : ledger.Keeps ledger :=
  ⟨rfl, rfl, rfl⟩

theorem Keeps.tally_eq (keeps : base.Keeps ledger) : ledger.tally = base.tally := by
  rw [tally, accounts, keeps.entries, keeps.places, keeps.used, tally, accounts]

theorem Keeps.step (keeps : base.Keeps ledger) : base.tally.Step ledger.tally := by
  rw [keeps.tally_eq]
  exact .kept

/-! ### Room -/

section

variable (keeps : base.Keeps ledger)

include keeps

theorem meets_grow (capacity : Nat) :
    ((grow key capacity).run ledger).Meets base.Keeps fun _ => base.Keeps := by
  simp only [grow, Plan.run_bind, Plan.run_get, Plan.run_lift, Script.bind_ok]
  exact .check keeps fun layout _ => ⟨keeps, keeps.entries, keeps.places, keeps.used⟩

theorem meets_makeRoom : ((makeRoom key).run ledger).Meets base.Keeps fun _ => base.Keeps := by
  simp only [makeRoom, Plan.run_bind, Plan.run_get, Script.bind_ok]
  by_cases full : ledger.header.count = ledger.header.capacity
  · rw [if_pos full]
    exact .check keeps fun capacity _ => meets_grow keeps capacity
  · rw [if_neg full]
    exact keeps

theorem meets_setCapacity (capacity : Nat) :
    ((setCapacity key capacity).run ledger).Meets base.Keeps fun _ => base.Keeps := by
  simp only [setCapacity, Plan.run_bind, Plan.run_get, Script.bind_ok]
  by_cases more : ledger.header.capacity < capacity
  · rw [if_pos more]
    exact .check keeps fun larger _ => meets_grow keeps larger
  · rw [if_neg more]
    exact keeps

theorem meets_ensureData (required : Nat) :
    ((ensureData key required).run ledger).Meets base.Keeps fun _ => base.Keeps := by
  simp only [ensureData, Plan.run_bind, Plan.run_get, Script.bind_ok]
  by_cases more : ledger.header.dataCapacity < required
  · rw [if_pos more]
    refine .check keeps fun dataCapacity _ => .check keeps fun layout _ => ?_
    exact ⟨keeps, keeps.entries, keeps.places, keeps.used⟩
  · rw [if_neg more]
    exact keeps

theorem meets_reserveData (additional : Nat) :
    ((reserveData key additional).run ledger).Meets base.Keeps fun _ => base.Keeps := by
  simp only [reserveData, Plan.run_bind, Plan.run_get, Script.bind_ok]
  exact .check keeps fun required _ => meets_ensureData keeps required

end

/-! ### Words for a value -/

/-- The words from a place on have been taken for a value. -/
structure Takes (base : Ledger) (size align place : Nat) (ledger : Ledger) : Prop where
  entries : ledger.entries = base.entries
  places : ledger.places = base.places
  suits : 4 < size → align ∣ place * wordSize
  within : ledger.header.dataAllocated ≤ base.header.dataAllocated + wordsTaken size

theorem meets_allocate (keeps : base.Keeps ledger) {size align : Nat} (supported : IsAlign align)
    (large : 4 < size) :
    ((allocate key size align).run ledger).Meets base.Keeps (base.Takes size align) := by
  simp only [allocate, Plan.run_bind, Plan.run_get, Script.bind_ok]
  refine .check keeps fun allocation planned => ?_
  obtain ⟨isStop, near, suits⟩ := near_of_planAllocation supported (orFail_eq_ok.mp planned)
  refine (meets_ensureData keeps allocation.stop).bind fun _ wide keepsWide => ?_
  refine ⟨keepsWide.entries, keepsWide.places, fun _ => suits, ?_⟩
  show allocation.stop ≤ _
  rw [wordsTaken, if_pos large, isStop, ← keeps.used]
  omega

theorem meets_takeRoom (keeps : base.Keeps ledger) {payload : Payload}
    (supported : IsAlign payload.align) :
    ((takeRoom key payload).run ledger).Meets base.Keeps
      (base.Takes payload.bytes.size payload.align) := by
  unfold takeRoom
  by_cases large : 4 < payload.bytes.size
  · rw [if_pos (isLarge_iff.mpr large)]
    exact meets_allocate keeps supported large
  · rw [if_neg (Bool.not_eq_true _ ▸ not_isLarge_iff.mpr (Nat.le_of_not_lt large))]
    exact ⟨keeps.entries, keeps.places, fun isLarge => absurd isLarge large,
      Nat.le_trans (Nat.le_of_eq keeps.used) (Nat.le_add_right _ _)⟩

/-! ### Values by slot -/

theorem getElem?_accounts (even : ledger.Even) (slot : Nat) :
    ledger.accounts[slot]? = ledger.entries[slot]?.map fun entry =>
      ⟨entry.key, entry.value.bytes.size, ledger.places.getD slot 0⟩ := by
  rw [accounts, List.getElem?_zipWith, List.getD_eq_getElem?_getD]
  by_cases inside : slot < ledger.entries.length
  · rw [List.getElem?_eq_getElem inside,
      List.getElem?_eq_getElem (show slot < ledger.places.length from even ▸ inside)]
    rfl
  · rw [List.getElem?_eq_none (Nat.le_of_not_lt inside)]
    rfl

/-- A new entry opens an account. -/
theorem accounts_push (even : ledger.Even) (entryKey : Bytes) (value : Value) (place : Nat) :
    (ledger.push entryKey value place).accounts =
      ledger.accounts ++ [⟨entryKey, value.bytes.size, place⟩] :=
  List.zipWith_append even.symm

/-- A value of the same size keeps the account. -/
theorem accounts_put {slot : Nat} {old value : Value} (even : ledger.Even)
    (there : Entries.stored ledger.entries slot = some old)
    (size : value.bytes.size = old.bytes.size) :
    (ledger.put slot value).accounts = ledger.accounts := by
  have evenPut : (ledger.put slot value).Even := even.trans (Entries.length_put ..).symm
  refine List.ext_getElem? fun other => ?_
  rw [getElem?_accounts evenPut, getElem?_accounts even, put, Entries.getElem?_put]
  by_cases same : slot = other
  · obtain ⟨entryKey, isEntry⟩ := Entries.stored_eq_some.mp there
    rw [if_pos same, ← same, isEntry]
    exact congrArg (fun size => some (Account.mk entryKey size (ledger.places.getD slot 0))) size
  · rw [if_neg same]

theorem tally_put {slot : Nat} {old value : Value} (even : ledger.Even)
    (there : Entries.stored ledger.entries slot = some old)
    (size : value.bytes.size = old.bytes.size) : (ledger.put slot value).tally = ledger.tally := by
  rw [tally, accounts_put even there size]
  rfl

/-- Another place is noted in the account of the slot. -/
theorem accounts_move {slot : Nat} (even : ledger.Even) {account : Account}
    (there : ledger.accounts[slot]? = some account) (place : Nat) :
    (ledger.move slot place).accounts = ledger.accounts.set slot { account with place } := by
  have evenMove : (ledger.move slot place).Even := List.length_set.trans even
  have inside := (List.getElem?_eq_some_iff.mp there).1
  refine List.ext_getElem? fun other => ?_
  rw [getElem?_accounts evenMove, List.getElem?_set, move, List.getD_eq_getElem?_getD,
    List.getElem?_set, getElem?_accounts even]
  by_cases same : slot = other
  · rw [getElem?_accounts even] at there
    obtain ⟨entry, isEntry, rfl⟩ := Option.map_eq_some_iff.mp there
    have insidePlaces : slot < ledger.places.length := by
      rw [even]
      exact (List.getElem?_eq_some_iff.mp isEntry).1
    rw [← same, if_pos rfl, if_pos rfl, if_pos insidePlaces, if_pos inside, isEntry]
    rfl
  · rw [if_neg same, if_neg same, ← List.getD_eq_getElem?_getD]

/-! ### Storing -/

namespace Takes

variable {size align place : Nat} {taken : Ledger}

theorem even_of_base (takes : base.Takes size align place taken) (even : base.Even) :
    taken.Even := by
  rw [Even, takes.places, takes.entries]
  exact even

theorem accounts_eq (takes : base.Takes size align place taken) :
    taken.accounts = base.accounts := by
  rw [accounts, takes.entries, takes.places, accounts]

/-- A new value goes to the words that have been taken for it. -/
theorem opens {payload : Payload} (takes : base.Takes payload.bytes.size align place taken)
    (even : base.Even) (entryKey : Bytes) :
    base.tally.Opens entryKey payload.bytes.size align
      (taken.push entryKey payload.value place).tally := by
  have opens := @Tally.Opens.intro entryKey payload.bytes.size align base.tally place
    taken.header.dataAllocated takes.suits takes.within
  show Tally.Opens _ _ _ _ ⟨(taken.push entryKey payload.value place).accounts, _⟩
  rw [accounts_push (takes.even_of_base even), takes.accounts_eq]
  exact opens

/-- The value of a slot goes to the words that have been taken for it. -/
theorem moves {payload : Payload} (takes : base.Takes payload.bytes.size align place taken)
    (even : base.Even) {slot : Nat} {account : Account} {old : Value}
    (there : Entries.stored base.entries slot = some old)
    (isAccount : base.accounts[slot]? = some account) (isSize : account.size = payload.bytes.size)
    (size : payload.bytes.size = old.bytes.size) (large : 4 < payload.bytes.size)
    (unsuited : ¬ align ∣ account.place * wordSize) :
    base.tally.Moves slot payload.bytes.size align
      ((taken.put slot payload.value).move slot place).tally := by
  have evenTaken := takes.even_of_base even
  have thereTaken : Entries.stored taken.entries slot = some old := by
    rw [takes.entries]
    exact there
  have samePut : (taken.put slot payload.value).accounts = base.accounts :=
    (accounts_put evenTaken thereTaken size).trans takes.accounts_eq
  have evenPut : (taken.put slot payload.value).Even :=
    evenTaken.trans (Entries.length_put ..).symm
  show Tally.Moves _ _ _ _ ⟨((taken.put slot payload.value).move slot place).accounts, _⟩
  rw [accounts_move evenPut (samePut ▸ isAccount), samePut]
  exact .intro isAccount isSize large unsuited (takes.suits large) takes.within

end Takes

section

variable (even : ledger.Even) {payload : Payload} (supported : IsAlign payload.align)

include even supported

/-- A new entry comes behind all others and opens an account. -/
theorem meets_insertNew (entryKey : Bytes) :
    ((insertNew key entryKey payload).run ledger).Meets ledger.Keeps fun _ later =>
      later.entries = ledger.entries ++ [⟨entryKey, payload.value⟩] ∧
        ledger.tally.Opens entryKey payload.bytes.size payload.align later.tally := by
  simp only [insertNew, fillSlot, Plan.run_bind, Plan.run_lift]
  refine .check (.refl ledger) fun _ _ => ?_
  refine (meets_makeRoom (.refl ledger)).bind fun _ roomy keeps => ?_
  refine (meets_takeRoom keeps supported).bind fun place taken takes => ?_
  exact ⟨congrArg (· ++ _) takes.entries, takes.opens even entryKey⟩

theorem meets_insertUnique (entryKey : Bytes) :
    ((insertUnique key entryKey payload).run ledger).Meets ledger.Keeps fun _ later =>
      ledger.tally.Opens entryKey payload.bytes.size payload.align later.tally := by
  simp only [insertUnique, Plan.run_bind, Plan.run_get, Plan.run_lift, Script.bind_ok]
  exact .check (.refl ledger) fun _ _ =>
    (meets_insertNew even supported entryKey).weaken (fun _ keeps => keeps) fun _ _ => And.right

/-- A value that gives way to another one moves only if its place does not suit that one. -/
theorem meets_replace (slot : Nat) :
    ((replace key slot payload).run ledger).Meets ledger.Keeps fun _ later =>
      later.entries = Entries.put ledger.entries slot payload.value ∧
        ledger.tally.Settles slot payload.bytes.size payload.align later.tally := by
  simp only [replace, Plan.run_bind, Plan.run_get, Plan.run_lift, Script.bind_ok]
  refine .check (.refl ledger) fun old isOld => .check (.refl ledger) fun _ demanded => ?_
  have there := orFail_eq_ok.mp isOld
  have size := demand_eq_ok.mp demanded
  obtain ⟨entryKey, isEntry⟩ := Entries.stored_eq_some.mp there
  have isAccount : ledger.accounts[slot]? =
      some ⟨entryKey, old.bytes.size, ledger.places.getD slot 0⟩ := by
    rw [getElem?_accounts even, isEntry, Option.map_some]
  by_cases suits : payload.bytes.size ≤ 4 ∨
      payload.align ∣ ledger.places.getD slot 0 * wordSize
  · rw [if_pos suits]
    refine ⟨rfl, ?_⟩
    rw [tally_put even there size.symm]
    exact .stays isAccount fun large => suits.resolve_left (Nat.not_le_of_lt large)
  · rw [if_neg suits]
    rw [not_or, Nat.not_le] at suits
    obtain ⟨large, unsuited⟩ := suits
    refine (meets_allocate (.refl ledger) supported large).bind fun place taken takes => ?_
    exact ⟨congrArg (Entries.put · slot payload.value) takes.entries,
      .moves (takes.moves even there isAccount size size.symm large unsuited)⟩

/-- A value that is stored for a key is there afterwards. -/
theorem meets_store (entryKey : Bytes) :
    ((store key entryKey payload).run ledger).Meets ledger.Keeps fun _ later =>
      Entries.lookup later.entries entryKey = some payload.value ∧
        ledger.tally.Stores (Entries.find ledger.entries entryKey) entryKey payload
          later.tally := by
  simp only [store, Plan.run_bind, Plan.run_get, Script.bind_ok]
  cases found : Entries.find ledger.entries entryKey with
  | some slot =>
    refine (meets_replace even supported slot).weaken (fun _ keeps => keeps) ?_
    rintro _ later ⟨isPut, settles⟩
    rw [isPut]
    exact ⟨Entries.lookup_put_self found payload.value, supported, settles⟩
  | none =>
    refine (meets_insertNew even supported entryKey).bind ?_
    rintro _ later ⟨isPushed, opens⟩
    refine ⟨?_, supported, opens⟩
    rw [isPushed]
    exact Entries.lookup_concat_self found payload.value

end

/-! ### Other operations -/

/-- What is read changes nothing. -/
theorem meets_read {α : Type} (checked : Checked α) :
    (Script.ends checked ledger).Meets ledger.Keeps fun _ => ledger.Keeps := by
  cases checked with
  | ok answer => exact .refl ledger
  | error failure => exact .refl ledger

/-- A value that is there is not inserted, and one that is inserted is found. -/
theorem meets_getOrAdd (even : ledger.Even) {default : Datum}
    (supported : IsAlign default.type.align) (entryKey : Bytes) :
    ((getOrAdd key entryKey default).run ledger).Meets (fun later => ledger.tally.Step later.tally)
      fun _ later => ledger.tally.Step later.tally := by
  simp only [getOrAdd, Plan.run_bind, Plan.run_get, Script.bind_ok]
  cases found : Entries.find ledger.entries entryKey with
  | some slot => exact (meets_read _).weaken (fun _ => Keeps.step) fun _ _ => Keeps.step
  | none =>
    have inserts := @meets_insertNew key ledger even default.payload supported entryKey
    refine (inserts.weaken (fun _ => Keeps.step) fun _ _ has => Tally.Step.opened has.2).bind
      fun slot later step => ?_
    simp only [Plan.run_bind, Plan.run_get, Plan.run_lift, Script.bind_ok]
    cases later.read slot default.type with
    | ok content => exact step
    | error failure => exact step

theorem meets_exchange (even : ledger.Even) (wanted : Bytes) (datum : Datum) :
    ((exchange wanted datum).run ledger).Meets ledger.Keeps fun _ later =>
      later.tally = ledger.tally := by
  simp only [exchange, Plan.run_bind, Plan.run_get, Script.bind_ok]
  cases found : Entries.find ledger.entries wanted with
  | none => exact rfl
  | some slot =>
    refine .check (.refl ledger) fun content isContent => ?_
    obtain ⟨old, there⟩ := Entries.exists_stored found
    obtain ⟨_, typed, -⟩ := Checked.bind_eq_ok.mp isContent
    rw [Entries.read_of_stored there] at typed
    obtain ⟨_, demanded, -⟩ := Checked.bind_eq_ok.mp typed
    obtain ⟨-, size⟩ := demand_eq_ok.mp demanded
    exact tally_put even there (datum.size_bytes.trans size.symm)

theorem meets_get? (wanted : Bytes) (type : ElementType) :
    ((get? wanted type).run ledger).Meets ledger.Keeps fun _ => ledger.Keeps := by
  simp only [get?, Plan.run_bind, Plan.run_get, Script.bind_ok]
  cases found : Entries.find ledger.entries wanted with
  | none => exact .refl ledger
  | some slot => exact (meets_read (ledger.read slot type)).bind fun _ _ keeps => keeps

end Ledger

/-! ### All operations -/

namespace Operation

/-- The key and the value that an operation stores, whether the key is there or not. -/
def stored? : Operation → Option (Bytes × Payload)
  | addOrSet entryKey datum => some (entryKey, datum.payload)
  | addOrSetBytes entryKey tag content => some (entryKey, .raw tag content)
  | _ => none

variable {key : KeyType} {ledger : Ledger} (even : ledger.Even)

include even

/-- What is stored is there afterwards. It opens an account for a new key, and settles that of a key
that is there. -/
theorem meets_stored {operation : Operation} {entryKey : Bytes} {payload : Payload}
    (stores : operation.stored? = some (entryKey, payload))
    (fits : operation.Fits ElementType.WellFormed key) :
    ((operation.plan key).run ledger).Meets ledger.Keeps fun _ later =>
      Entries.lookup later.entries entryKey = some payload.value ∧
        ledger.tally.Stores (Entries.find ledger.entries entryKey) entryKey payload
          later.tally := by
  cases operation with
  | addOrSet storedKey datum =>
    obtain ⟨rfl, rfl⟩ := Prod.mk.inj (Option.some.inj stores)
    refine Script.Meets.map (.check (.refl ledger) fun _ storable => ?_)
    exact Ledger.meets_store even (fits_of_storable fits.2 storable).supported storedKey
  | addOrSetBytes storedKey tag content =>
    obtain ⟨rfl, rfl⟩ := Prod.mk.inj (Option.some.inj stores)
    refine Script.Meets.map (.check (.refl ledger) fun _ _ => ?_)
    exact Ledger.meets_store even (fits_raw tag content).supported storedKey
  | _ => exact absurd stores (by simp [stored?])

/-- An operation other than clearing makes a step. -/
theorem meets_step {operation : Operation} (fits : operation.Fits ElementType.WellFormed key)
    (unclear : operation ≠ .clear) :
    ((operation.plan key).run ledger).Meets (fun later => ledger.tally.Step later.tally)
      fun _ later => ledger.tally.Step later.tally := by
  have kept (later : Ledger) := @Ledger.Keeps.step ledger later
  cases operation with
  | add entryKey datum =>
    refine Script.Meets.map (.check .kept fun _ storable => ?_)
    exact (Ledger.meets_insertUnique even (fits_of_storable fits.2 storable).supported
      entryKey).weaken kept fun _ _ opens => .opened opens
  | addBytes entryKey tag content =>
    refine Script.Meets.map (.check .kept fun _ _ => ?_)
    exact (Ledger.meets_insertUnique even (fits_raw tag content).supported entryKey).weaken kept
      fun _ _ opens => .opened opens
  | addOrSet | addOrSetBytes =>
    exact (meets_stored even rfl fits).weaken kept fun _ _ has => has.2.step
  | getOrAdd entryKey default =>
    refine Script.Meets.map (.check .kept fun _ storable => ?_)
    exact Ledger.meets_getOrAdd even (fits_of_storable fits.2 storable).supported entryKey
  | exchange wanted datum =>
    refine Script.Meets.map ((Ledger.meets_exchange even wanted datum).weaken kept ?_)
    intro _ later same
    rw [same]
    exact .kept
  | setCapacity capacity =>
    exact Script.Meets.map ((Ledger.meets_setCapacity (.refl ledger) capacity).weaken kept
      fun _ => kept)
  | reserveData additional =>
    exact Script.Meets.map ((Ledger.meets_reserveData (.refl ledger) additional).weaken kept
      fun _ => kept)
  | clear => exact absurd rfl unclear
  | get wanted type =>
    exact Script.Meets.map ((Ledger.meets_get? wanted type).weaken kept fun _ => kept)
  | getBytes | find | contains | keys | count => exact .kept

end Operation

end UntypedMap

end PackedStore
