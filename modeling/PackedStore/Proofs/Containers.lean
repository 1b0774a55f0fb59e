/-
This file treats the containers alike. A block becomes a container of one kind, is
attached to as that kind, and is asked for what the kind offers. What each kind is
known to guarantee is said once for all of them: attaching succeeds, the block can
be taken apart, requests are safe, and a container that cannot be created leaves
its block as it was.
-/

import PackedStore.Proofs.IndexedMap.Safety
import PackedStore.Proofs.UntypedMap.Safety
import PackedStore.Proofs.UntypedSequence.Safety

namespace PackedStore

/-- What a block can become. -/
inductive Container where
  | map (key : KeyType)
  | sequence
  | indexedMap (shape : IndexedMap.Shape)

namespace Container

variable {Buffer : Type} [Host Buffer]

/-! ### Operations on containers -/

def init (sizing : Sizing) : Container → Store Buffer Unit
  | map key => UntypedMap.init key sizing
  | sequence => UntypedSequence.init sizing
  | indexedMap shape => IndexedMap.init shape sizing

def attach : Container → Store Buffer Unit
  | map key => UntypedMap.attach key
  | sequence => UntypedSequence.attach
  | indexedMap shape => IndexedMap.attach shape

def dispose : Container → Store Buffer Unit
  | map _ => UntypedMap.dispose
  | sequence => UntypedSequence.dispose
  | indexedMap _ => IndexedMap.dispose

/-- Everything that can be asked of a container. -/
abbrev Request : Container → Type
  | map _ => UntypedMap.Request
  | sequence => UntypedSequence.Request
  | indexedMap _ => IndexedMap.Request

def answer : (container : Container) → container.Request → Store Buffer Unit
  | map key, request => UntypedMap.Request.run key request
  | sequence, request => UntypedSequence.Request.run request
  | indexedMap shape, request => IndexedMap.Request.run shape request

/-! ### What holds of a container -/

/-- The types that fill the arrays of the container. -/
def types : Container → List ElementType
  | map key => [key.toElementType]
  | sequence => []
  | indexedMap shape => shape.value :: shape.kinds.map KeyType.toElementType

/-- The types that fill the arrays are well-formed. Types without bytes may be among them; nothing is
ever stored in their arrays, which have no members. -/
def WellFormed (container : Container) : Prop :=
  ∀ type ∈ container.types, type.WellFormed

/-- The request brings keys, rows and values of the types of the container. Other values that it
brings, and types that it accesses a value as, are known; a type that no block can hold aligned may
be stored as well. A cursor has not been carried over from another state of the container. -/
def Fits (known : ElementType → Prop) (site : Site Buffer) :
    (container : Container) → container.Request → Prop
  | map key, request => UntypedMap.Request.Fits known key request
  | sequence, request => UntypedSequence.Request.Fits known request
  | indexedMap shape, request => IndexedMap.Request.Fits shape site request

/-- The site holds the container. -/
def Sound (known : ElementType → Prop) (site : Site Buffer) : Container → Prop
  | map key => UntypedMap.Sound known key site
  | sequence => UntypedSequence.Sound known site
  | indexedMap shape => IndexedMap.Sound shape site

/-- The parts of the container that a block holds. -/
def parts (bytes : Bytes) : Container → Checked (List (Segment × Segment.Content))
  | map key => UntypedMap.parts key bytes
  | sequence => UntypedSequence.parts bytes
  | indexedMap shape => IndexedMap.parts shape bytes

/-- The block can be taken apart into the parts of the container. -/
def Intact (bytes : Bytes) (container : Container) : Prop :=
  ∃ taken, container.parts bytes = .ok taken ∧ Segment.Carved bytes taken

/-! ### What every container guarantees -/

variable {known : ElementType → Prop} {site : Site Buffer} {container : Container}

theorem WellFormed.key {key : KeyType} (wellFormed : (map key).WellFormed) :
    key.toElementType.WellFormed :=
  wellFormed _ List.mem_cons_self

theorem WellFormed.shape {shape : IndexedMap.Shape} (wellFormed : (indexedMap shape).WellFormed) :
    shape.WellFormed where
  value := wellFormed _ List.mem_cons_self
  kinds _ member := wellFormed _ (List.mem_cons_of_mem _ (List.mem_map_of_mem member))

theorem WellFormed.of_key {key : KeyType} (wellFormed : key.toElementType.WellFormed) :
    (map key).WellFormed := fun type member => by
  obtain rfl := List.mem_singleton.mp member
  exact wellFormed

theorem WellFormed.of_shape {shape : IndexedMap.Shape} (wellFormed : shape.WellFormed) :
    (indexedMap shape).WellFormed := fun type member => by
  rcases List.mem_cons.mp member with rfl | mapped
  · exact wellFormed.value
  · obtain ⟨kind, isKind, rfl⟩ := List.mem_map.mp mapped
    exact wellFormed.kinds kind isKind

/-- Wherever a container finds its parts, they do not overlap and have the right places and
lengths. -/
theorem carved_parts (wellFormed : container.WellFormed) {bytes : Bytes}
    {taken : List (Segment × Segment.Content)} (isParts : container.parts bytes = .ok taken) :
    Segment.Carved bytes taken := by
  cases container with
  | map key => exact UntypedMap.carved_parts wellFormed.key isParts
  | sequence => exact UntypedSequence.carved_parts isParts
  | indexedMap shape => exact IndexedMap.carved_parts wellFormed.shape isParts

/-- A container that cannot be created leaves its block as it was. -/
theorem init_withdraws [LawfulHost Buffer] (wellFormed : container.WellFormed) (sizing : Sizing)
    (site : Site Buffer) : Store.Withdraws Failure.Documented site (container.init sizing) := by
  cases container with
  | map key => exact UntypedMap.init_withdraws wellFormed.key sizing site
  | sequence => exact UntypedSequence.init_withdraws sizing site
  | indexedMap shape => exact IndexedMap.init_withdraws wellFormed.shape sizing site

theorem sound_of_init [LawfulHost Buffer] (wellFormed : container.WellFormed) {sizing : Sizing}
    {later : Site Buffer} (run : container.init sizing site = .ok () later) :
    container.Sound known later := by
  cases container with
  | map key =>
    obtain ⟨image, holds, -⟩ := UntypedMap.holds_of_init wellFormed.key run
    exact holds.sound
  | sequence =>
    obtain ⟨image, holds, -⟩ := UntypedSequence.holds_of_init run
    exact ⟨[], ⟨image, holds⟩, fun datum member => absurd member List.not_mem_nil⟩
  | indexedMap shape =>
    obtain ⟨image, holds, -⟩ := IndexedMap.holds_of_init wellFormed.shape run
    exact holds.sound

/-- A container that cannot be disposed of leaves its block as it was. -/
theorem dispose_withdraws (container : Container) (site : Site Buffer) :
    Store.Withdraws Failure.Documented site (container.dispose : Store Buffer Unit) := by
  have withdraws : Store.Withdraws Failure.Documented site (Store.resize 0) :=
    .of_resize (fun _ => Failure.IsStorage.documented) 0
  cases container <;> exact withdraws

namespace Sound

/-- The container in a block has all its parts. -/
theorem intact (wellFormed : container.WellFormed) (sound : container.Sound known site) :
    container.Intact site.bytes := by
  have taken : ∃ taken, container.parts site.bytes = .ok taken := by
    cases container with
    | map key =>
      obtain ⟨entries, image, order, holds⟩ := sound
      exact ⟨_, Checked.bind_eq_ok.mpr ⟨image, holds.loaded, rfl⟩⟩
    | sequence =>
      obtain ⟨elements, ⟨image, holds⟩, -⟩ := sound
      exact ⟨_, Checked.bind_eq_ok.mpr ⟨image, holds.loaded, rfl⟩⟩
    | indexedMap shape =>
      obtain ⟨image, table, orders, holds⟩ := sound
      exact ⟨_, Checked.bind_eq_ok.mpr ⟨image, holds.loaded, rfl⟩⟩
  obtain ⟨taken, isParts⟩ := taken
  exact ⟨taken, isParts, carved_parts wellFormed isParts⟩

/-- The container in a block can be attached to. -/
theorem run_attach (wellFormed : container.WellFormed) (sound : container.Sound known site) :
    container.attach site = .ok () site := by
  cases container with
  | map key =>
    obtain ⟨entries, image, order, holds⟩ := sound
    exact holds.run_attach wellFormed.key
  | sequence =>
    obtain ⟨elements, ⟨image, holds⟩, -⟩ := sound
    exact holds.run_attach
  | indexedMap shape =>
    obtain ⟨image, table, orders, holds⟩ := sound
    exact holds.run_attach wellFormed.shape

/-- Whatever is asked of a container leads to a container again. -/
theorem safe [LawfulHost Buffer] (types : AlignedTypes known) (wellFormed : container.WellFormed)
    (sound : container.Sound known site) {request : container.Request}
    (fits : container.Fits known site request) :
    Store.Safe (container.Sound known ·) site (container.answer request) := by
  cases container with
  | map key =>
    obtain ⟨entries, image, order, holds⟩ := sound
    exact holds.safe wellFormed.key types fits
  | sequence =>
    obtain ⟨elements, ⟨image, holds⟩, allKnown⟩ := sound
    exact holds.safe types allKnown fits
  | indexedMap shape =>
    obtain ⟨image, table, orders, holds⟩ := sound
    exact holds.safe wellFormed.shape fits

end Sound

end Container

end PackedStore
