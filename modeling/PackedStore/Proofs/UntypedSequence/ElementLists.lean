/-
This file holds what the operations on a sequence do to the list of its values.
The index of a value is its position in the list. An access as a type looks at the
tag and the size that are kept beside the bytes; within a family of types that
their tags tell apart, it succeeds exactly for the type the value was added with.
-/

import PackedStore.Proofs.UntypedSequence.Packing

namespace PackedStore.UntypedSequence

/-- The value with other bytes, if there are as many. -/
def rewritten (content : Bytes) (datum : Datum) : Datum :=
  if same : content.size = datum.type.size then ⟨datum.type, content, same⟩ else datum

section

variable {datum : Datum}

theorem rewritten_type (content : Bytes) (datum : Datum) :
    (rewritten content datum).type = datum.type := by
  unfold rewritten
  split <;> rfl

theorem rewritten_of {content : Bytes} (size : content.size = datum.type.size) :
    (rewritten content datum).bytes = content := by
  rw [rewritten, dif_pos size]

/-- The new value has the type of the old one, so it starts in the same place. -/
theorem startFrom_rewritten (cursor : Nat) (content : Bytes) :
    startFrom cursor (rewritten content datum) = startFrom cursor datum := by
  rw [startFrom, rewritten_type, startFrom]

theorem stopFrom_rewritten {content : Bytes} (size : content.size = datum.bytes.size)
    (cursor : Nat) : stopFrom cursor (rewritten content datum) = stopFrom cursor datum := by
  rw [stopFrom, startFrom_rewritten, rewritten_of (size.trans datum.size_bytes), size, stopFrom]

/-- A value takes the place of another one of its type. -/
theorem rewritten_eq {other : Datum} (same : datum.type = other.type) :
    rewritten other.bytes datum = other := by
  obtain ⟨type, content, size⟩ := other
  obtain rfl : datum.type = type := same
  exact dif_pos size

end

namespace Elements

/-- The value with an index. -/
def element (elements : List Datum) (index : Nat) : Checked Datum :=
  orFail elements[index]? (.misuse (.indexOutOfRange index elements.length))

/-- The bytes of an element whose tag, size and place are those of a type. -/
def access (elements : List Datum) (index : Nat) (type : ElementType) : Checked Bytes := do
  let datum ← element elements index
  demandType (.index index) datum.type.tag datum.bytes.size type
  require (startFrom (packedFrom 0 (elements.take index)) datum % type.align = 0) .misaligned
  return datum.bytes

/-- The bytes of an element that was added as a value of a type. -/
def read (elements : List Datum) (index : Nat) (type : ElementType) : Checked Bytes := do
  let datum ← element elements index
  demand (datum.type = type) (.typeMismatch (.index index) datum.type.tag datum.bytes.size type)
  return datum.bytes

/-- The elements with other bytes of one of them. -/
def write (elements : List Datum) (index : Nat) (content : Bytes) : List Datum :=
  elements.modify index (rewritten content)

variable {elements front back : List Datum} {index : Nat} {datum : Datum} {type : ElementType}

theorem element_of (there : elements[index]? = some datum) :
    element elements index = .ok datum := by
  rw [element, there, orFail]

theorem element_of_none (absent : elements[index]? = none) :
    element elements index = .error (.misuse (.indexOutOfRange index elements.length)) := by
  rw [element, absent, orFail]

/-- In a family of types, an access as a type asks for the type that the element was added with,
and the place suits it. -/
theorem access_eq_read {known : ElementType → Prop} (family : TypeFamily known)
    (isKnown : known type) (storable : ∀ datum ∈ elements, known datum.type ∧ Storable datum.type) :
    access elements index type = read elements index type := by
  unfold access read
  cases there : elements[index]? with
  | none => rw [element_of_none there, Checked.bind_error, Checked.bind_error]
  | some datum =>
    obtain ⟨datumKnown, suits⟩ := storable datum (List.mem_of_getElem? there)
    rw [element_of there, Checked.bind_ok, Checked.bind_ok]
    by_cases same : datum.type = type
    · have matching : datum.type.tag = type.tag ∧ datum.bytes.size = type.size :=
        ⟨congrArg ElementType.tag same, datum.size_bytes.trans (congrArg ElementType.size same)⟩
      have aligned : startFrom (packedFrom 0 (elements.take index)) datum % type.align = 0 :=
        suits.startFrom_mod (same ▸ Nat.dvd_refl _)
      rw [demandType, demand_of matching, Checked.bind_ok, require_of aligned, Checked.bind_ok,
        demand_of same, Checked.bind_ok]
    · have differs : ¬ (datum.type.tag = type.tag ∧ datum.bytes.size = type.size) := fun both =>
        same (family.distinct _ _ datumKnown isKnown both.1)
      rw [demandType, demand_of_not differs, demand_of_not same, Checked.bind_error,
        Checked.bind_error]

/-! ### Writing -/

theorem length_write (content : Bytes) : (write elements index content).length = elements.length :=
  List.length_modify _ _ _

theorem write_append (content : Bytes) :
    write (front ++ datum :: back) front.length content =
      front ++ rewritten content datum :: back := by
  rw [write, List.modify_eq_take_cons_drop (by simp)]
  simp

/-- Writing keeps the types of all elements. -/
theorem known_write {known : ElementType → Prop} (allKnown : ∀ datum ∈ elements, known datum.type)
    {content : Bytes} : ∀ datum ∈ write elements index content, known datum.type := by
  intro datum member
  obtain ⟨place, there⟩ := List.mem_iff_getElem?.mp member
  rw [write, List.getElem?_modify] at there
  obtain ⟨old, thereOld, rfl⟩ := Option.map_eq_some_iff.mp there
  have isKnown := allKnown old (List.mem_of_getElem? thereOld)
  by_cases here : index = place
  · rw [if_pos here, rewritten_type]
    exact isKnown
  · rwa [if_neg here]

/-- Writing to an element of the same type replaces it. -/
theorem write_eq_set {other : Datum} (there : elements[index]? = some datum)
    (same : datum.type = other.type) : write elements index other.bytes = elements.set index other := by
  obtain ⟨inside, rfl⟩ := List.getElem?_eq_some_iff.mp there
  rw [write, List.modify_eq_take_cons_drop inside, List.set_eq_take_append_cons_drop, if_pos inside,
    rewritten_eq same]

end Elements

end PackedStore.UntypedSequence
