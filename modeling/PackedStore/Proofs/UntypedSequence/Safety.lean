/-
This file says that a sequence is safe to use: a block that holds one can be
attached to and taken apart into its arrays, and whatever is asked of it leads to
a block that holds a sequence again. A typed access whose tag and size are those of
the element finds it in a place that suits the type, and every other one is refused
as a documented misuse.
-/

import PackedStore.Proofs.UntypedSequence.Simulation

namespace PackedStore.UntypedSequence

/-! ### The parts of a sequence -/

/-- The parts of the sequence that a block holds. -/
def parts (bytes : Bytes) : Checked (List (Segment × Segment.Content)) := do
  let image ← Image.load bytes
  return image.layout.parts image.header.capacity image.header.dataCapacity

/-- Wherever there are parts, the block can be taken apart into them. -/
theorem carved_parts {bytes : Bytes} {taken : List (Segment × Segment.Content)}
    (isParts : parts bytes = .ok taken) : Segment.Carved bytes taken := by
  obtain ⟨image, loaded, returned⟩ := Checked.bind_eq_ok.mp isParts
  obtain rfl := Except.ok.inj returned
  obtain ⟨header, layout, -, computed, inside, rfl⟩ := Image.load_eq_ok.mp loaded
  have placed := Layout.placed_of_compute computed
  exact Segment.carved_of_spans placed.spans inside placed.suits

/-! ### Failures of elements -/

namespace Elements

variable {known : ElementType → Prop} {elements : List Datum} {type : ElementType}

theorem documented_element (elements : List Datum) (index : Nat) :
    (element elements index).FailsOnly Failure.Documented :=
  .orFail _ trivial

theorem documented_access (types : AlignedTypes known) (isKnown : known type)
    (storable : ∀ datum ∈ elements, known datum.type ∧ Storable datum.type) (index : Nat) :
    (access elements index type).FailsOnly Failure.Documented := by
  unfold access
  cases there : elements[index]? with
  | none =>
    rw [element_of_none there, Checked.bind_error]
    exact .error trivial
  | some datum =>
    obtain ⟨datumKnown, suits⟩ := storable datum (List.mem_of_getElem? there)
    rw [element_of there, Checked.bind_ok, demandType]
    by_cases matching : datum.type.tag = type.tag ∧ datum.bytes.size = type.size
    · have same := types.alike datum.type type datumKnown isKnown matching.1
        (datum.size_bytes.symm.trans matching.2)
      have divides : type.align ∣ datum.type.align := same ▸ Nat.dvd_refl _
      rw [demand_of matching, Checked.bind_ok, require_of (suits.startFrom_mod divides),
        Checked.bind_ok]
      exact .ok _
    · rw [demand_of_not matching, Checked.bind_error]
      exact .error trivial

/-- Operations on elements fail only where the caller broke a documented rule or wants too many
elements. -/
theorem documented_perform (types : AlignedTypes known) {operation : Operation}
    (fits : operation.Fits known)
    (storable : ∀ datum ∈ elements, known datum.type ∧ Storable datum.type) :
    (perform operation elements).FailsOnly Failure.Documented := by
  cases operation with
  | add datum => exact (documented_demandStorable _).bind fun _ => .ok _
  | exchange index datum =>
    exact (documented_access types fits storable index).bind fun _ => .ok _
  | elementAt index type =>
    exact (documented_access types fits storable index).bind fun _ => .ok _
  | setCapacity capacity =>
    refine Checked.FailsOnly.bind ?_ fun _ => .ok _
    unfold demandCapacity
    split
    · exact .ok ()
    · exact .error trivial
  | removeAt index | bytesAt index | tagAt index | sizeAt index =>
    exact (documented_element elements index).bind fun _ => .ok _
  | clear => exact .ok _
  | count => exact .ok _

end Elements

/-! ### Requests -/

/-- Everything that can be asked of a sequence. -/
inductive Request where
  | perform (operation : Operation)
  | header
  | listing (tagText : TypeTag → String)

/-- The operation would add a value of a type that no block can hold aligned. -/
def Operation.OverAligned : Operation → Prop
  | add datum => blockAlign < datum.type.align
  | _ => False

namespace Request

def run {Buffer : Type} [Host Buffer] : Request → Store Buffer Unit
  | .perform operation => discard operation.run
  | .header => discard UntypedSequence.header
  | .listing tagText => discard (UntypedSequence.listing tagText)

/-- The types that a request brings are known, or cannot be stored. -/
def Fits (known : ElementType → Prop) : Request → Prop
  | .perform operation => operation.Fits known ∨ operation.OverAligned
  | _ => True

end Request

variable {Buffer : Type} [Host Buffer] {known : ElementType → Prop} {site : Site Buffer}
  {image : Image} {elements : List Datum}

/-- The site holds a sequence of values of known types. -/
def Sound (known : ElementType → Prop) (site : Site Buffer) : Prop :=
  ∃ elements, Carries site elements ∧ ∀ datum ∈ elements, known datum.type

/-- A value that cannot be aligned is refused before anything else is looked at. -/
theorem Operation.OverAligned.run_eq {operation : Operation} (unaligned : operation.OverAligned) :
    ∃ type, operation.run site = .error (.misuse (.overAligned type)) site := by
  cases operation with
  | add datum =>
    have above : ¬ datum.type.align ≤ blockAlign := Nat.not_le_of_lt unaligned
    refine ⟨datum.type, ?_⟩
    simp only [Operation.run, UntypedSequence.add, demandStorable, Edit.run_map, Edit.run_bind,
      demand_of_not above, Checked.bind_error, Edit.run_lift_error]
  | _ => exact absurd unaligned id

namespace Holds

variable (holds : Holds site image elements)

include holds

theorem run_listing (tagText : TypeTag → String) :
    ∃ text, listing tagText site = .ok text site := by
  have room : image.header.count ≤ image.types.size := by
    rw [holds.represents.sound.size_types]
    exact holds.represents.regular.count_le
  exact ⟨_, Store.run_view_ok holds.loaded
    (Checked.bind_eq_ok.mpr ⟨_, takeFront?_of room, rfl⟩)⟩

/-- The sequence in a block can be attached to. -/
theorem run_attach : attach site = .ok () site := by
  have sound := holds.represents.sound
  have long : headerLength ≤ site.bytes.size := by
    rw [holds.size_eq]
    exact sound.placed.header_le
  have whole : image.layout.total ≤ site.bytes.size := Nat.le_of_eq holds.size_eq.symm
  have recorded : Layout.ofHeader image.header = .ok image.layout :=
    recorded_eq_ok.mpr sound.computed
  simp only [attach, Edit.run_bind, Store.run_bytes, demand_of long, Edit.run_lift_ok,
    holds.load_header, demand_of holds.represents.regular.magic, recorded, demand_of whole]

variable [LawfulHost Buffer] (types : AlignedTypes known)
  (allKnown : ∀ datum ∈ elements, known datum.type)

include types allKnown

theorem safe_operation {operation : Operation}
    (fits : operation.Fits known ∨ operation.OverAligned) :
    Store.Safe (Sound known) site operation.run := by
  rcases fits with fits | unaligned
  · have storable (datum : Datum) (member : datum ∈ elements) :
        known datum.type ∧ Storable datum.type :=
      ⟨allKnown datum member, holds.represents.storable datum member⟩
    refine .of_performs (holds.performs (fits.aligned types))
      (Elements.documented_perform types fits storable) fun later changed carries either => ?_
    rcases either with rfl | ⟨answer, performs⟩
    · exact ⟨changed, carries, allKnown⟩
    · exact ⟨changed, carries, Elements.known_of_perform fits allKnown performs⟩
  · obtain ⟨type, run⟩ := @Operation.OverAligned.run_eq _ _ site operation unaligned
    exact .of_error run trivial ⟨elements, ⟨image, holds⟩, allKnown⟩

/-- Whatever is asked of a sequence leads to a sequence again. -/
theorem safe {request : Request} (fits : request.Fits known) :
    Store.Safe (Sound known) site request.run := by
  have sound : Sound known site := ⟨elements, ⟨image, holds⟩, allKnown⟩
  cases request with
  | perform operation => exact (holds.safe_operation types allKnown fits).discard
  | header => exact (Store.Safe.of_ok holds.run_header sound).discard
  | listing tagText =>
    obtain ⟨text, run⟩ := holds.run_listing tagText
    exact (Store.Safe.of_ok run sound).discard

end Holds

/-! ### Creation -/

/-- A sequence that cannot be created leaves its block as it was. -/
theorem init_withdraws [LawfulHost Buffer] (sizing : Sizing) (site : Site Buffer) :
    Store.Withdraws Failure.Documented site (init sizing) := by
  rcases @run_init _ _ site _ sizing with ⟨failure, failed, cause⟩ | ⟨later, image, run, -⟩
  · refine .of_error failed ?_
    rcases cause with ⟨-, rfl⟩ | storage
    · trivial
    · exact storage.documented
  · exact .of_ok run

end PackedStore.UntypedSequence
