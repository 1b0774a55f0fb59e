/-
This file runs the operations of a container on a host down to the bytes of the
block. Whatever an operation does, it writes and resizes only, so a host that
grants every resize still does so afterwards. Moving segments to new places keeps
the contents of all of them, or changes nothing when the resize is refused.
-/

import PackedStore.Host.Store
import PackedStore.Proofs.Layout.Segments

namespace PackedStore

variable {Buffer Image α : Type} [Host Buffer]

/-! ### Hosts that grant resizes -/

/-- The lengths that a host can be asked for without asking for too much. -/
def lengthLimit : Nat := 2 ^ 62

/-- Buffers whose resizes are all granted, now and after any writes and resizes. -/
structure Granting (granted : Buffer → Prop) : Prop where
  write : ∀ buffer content, granted buffer → granted (Host.write buffer content)
  resized : ∀ buffer length resized, granted buffer →
    Host.resize buffer length = .ok resized → granted resized
  resizes : ∀ buffer length, granted buffer → length < lengthLimit →
    ∃ resized, Host.resize buffer length = .ok resized

namespace Site

/-- The content of the block. -/
def bytes (site : Site Buffer) : Bytes :=
  Host.bytes site.buffer

/-- The site with another content of the same length. -/
def put (site : Site Buffer) (content : Bytes) : Site Buffer :=
  { site with buffer := Host.write site.buffer content }

/-- The site with another buffer. -/
def withBuffer (site : Site Buffer) (buffer : Buffer) : Site Buffer :=
  { site with buffer := buffer }

@[simp] theorem bytes_withBuffer (site : Site Buffer) (buffer : Buffer) :
    (site.withBuffer buffer).bytes = Host.bytes buffer := rfl

theorem bytes_put [LawfulHost Buffer] {site : Site Buffer} {content : Bytes}
    (size : content.size = site.bytes.size) : (site.put content).bytes = content :=
  LawfulHost.bytes_write site.buffer content size

/-- A host that grants every resize at the first site does so at the second one. -/
def Continues (site later : Site Buffer) : Prop :=
  ∀ granted : Buffer → Prop, Granting granted → granted site.buffer → granted later.buffer

theorem Continues.refl (site : Site Buffer) : Continues site site :=
  fun _ _ here => here

theorem Continues.trans {site middle later : Site Buffer} (first : Continues site middle)
    (second : Continues middle later) : Continues site later :=
  fun granted granting here => second granted granting (first granted granting here)

theorem Continues.put (site : Site Buffer) (content : Bytes) : Continues site (site.put content) :=
  fun _ granting here => granting.write _ _ here

theorem Continues.resize {site : Site Buffer} {length : Nat} {buffer : Buffer}
    (resized : Host.resize site.buffer length = .ok buffer) :
    Continues site (site.withBuffer buffer) :=
  fun _ granting here => granting.resized _ _ _ here resized

theorem Continues.report (site : Site Buffer) (events : List Event) :
    Continues site { site with events := events } :=
  fun _ _ here => here

end Site

namespace Store

variable {site : Site Buffer}

/-! ### Running single steps -/

@[simp] theorem run_bytes : (bytes : Store Buffer Bytes) site = .ok site.bytes site := rfl

@[simp] theorem run_length : (length : Store Buffer Nat) site = .ok site.bytes.size site := rfl

@[simp] theorem run_write (content : Bytes) :
    (write content : Store Buffer Unit) site = .ok () (site.put content) := rfl

omit [Host Buffer] in
@[simp] theorem run_report (event : Event) :
    (report event : Store Buffer Unit) site =
      .ok () { site with events := site.events ++ [event] } := rfl

theorem run_resize_ok {length : Nat} {buffer : Buffer}
    (resized : Host.resize site.buffer length = .ok buffer) :
    resize length site = .ok () (site.withBuffer buffer) := by
  simp only [resize, Edit.run_bind, Edit.run_get, resized, Edit.run_set]
  rfl

theorem run_resize_error {length : Nat} {error : StorageError}
    (refused : Host.resize site.buffer length = .error error) :
    resize length site = .error (.storage error) site := by
  simp only [resize, Edit.run_bind, Edit.run_get, refused, Edit.run_throw]

theorem resize_eq_ok {length : Nat} {later : Site Buffer} {answer : Unit} :
    resize length site = .ok answer later ↔
      ∃ buffer, Host.resize site.buffer length = .ok buffer ∧ later = site.withBuffer buffer := by
  cases resized : Host.resize site.buffer length with
  | ok buffer => simp [run_resize_ok resized, eq_comm]
  | error error => simp [run_resize_error resized]

theorem run_writeAt {offset : Nat} {content : Bytes}
    (inside : offset + content.size ≤ site.bytes.size) :
    writeAt offset content site = .ok () (site.put (site.bytes.patch offset content.toList)) := by
  simp only [writeAt, Edit.run_bind, run_bytes, require_of inside, Edit.run_lift_ok, run_write]

/-- A write that does not fit changes nothing. -/
theorem run_writeAt_error {offset : Nat} {content : Bytes}
    (beyond : ¬ offset + content.size ≤ site.bytes.size) :
    writeAt offset content site = .error (.fault .outOfRange) site := by
  simp only [writeAt, Edit.run_bind, run_bytes, require, if_neg beyond, Edit.run_lift_error]

variable {format : ImageFormat Image} {image : Image}

theorem run_view_ok (loaded : format.load site.bytes = .ok image) {read : Image → Checked α}
    {answer : α} (result : read image = .ok answer) :
    view format read site = .ok answer site := by
  simp only [view, Edit.run_bind, run_bytes, loaded, Edit.run_lift_ok, result]

theorem run_edit_ok (loaded : format.load site.bytes = .ok image) {change : Edit Image α}
    {answer : α} {changed : Image} (run : change image = .ok answer changed) :
    edit format change site = .ok answer (site.put (format.save changed site.bytes)) := by
  simp only [edit, Edit.run_bind, run_bytes, loaded, Edit.run_lift_ok, run, run_write,
    Edit.run_pure]

theorem run_edit_error (loaded : format.load site.bytes = .ok image) {change : Edit Image α}
    {failure : Failure} {changed : Image} (run : change image = .error failure changed) :
    edit format change site = .error failure (site.put (format.save changed site.bytes)) := by
  simp only [edit, Edit.run_bind, run_bytes, loaded, Edit.run_lift_ok, run, run_write,
    Edit.run_throw]

/-! ### Moving segments -/

variable {moves : List (Segment × Segment)} {length : Nat}

/-- The contents that moves carry, with the segments they go to. -/
def carried (bytes : Bytes) (moves : List (Segment × Segment)) : List (Segment × List UInt8) :=
  moves.map fun move => (move.2, (bytes.extract move.1.offset move.1.stop).toList)

/-- Every move takes a segment inside the block to one inside a length that is large enough. -/
structure Movable (size length : Nat) (moves : List (Segment × Segment)) : Prop where
  source : ∀ move ∈ moves, move.1.stop ≤ size
  target : ∀ move ∈ moves, move.2.stop ≤ length
  fits : ∀ move ∈ moves, move.1.length ≤ move.2.length

theorem Movable.tail {size : Nat} {move : Segment × Segment}
    (movable : Movable size length (move :: moves)) : Movable size length moves where
  source other member := movable.source other (List.mem_cons_of_mem _ member)
  target other member := movable.target other (List.mem_cons_of_mem _ member)
  fits other member := movable.fits other (List.mem_cons_of_mem _ member)

omit [Host Buffer] in
theorem run_saves {content : Bytes} (inside : ∀ move ∈ moves, move.1.stop ≤ content.size) :
    (moves.mapM fun move => do
      return (← move.1.slice content, move.2) : Store Buffer (List (Bytes × Segment))) site =
      .ok (moves.map fun move => (content.extract move.1.offset move.1.stop, move.2)) site := by
  induction moves with
  | nil => rfl
  | cons move rest inductionHypothesis =>
    have insideRest (other : Segment × Segment) (member : other ∈ rest) :
        other.1.stop ≤ content.size := inside other (List.mem_cons_of_mem _ member)
    rw [List.mapM_cons]
    simp only [Edit.run_bind, Segment.slice_of (inside move List.mem_cons_self), Edit.run_lift_ok,
      Edit.run_pure, inductionHypothesis insideRest]
    rfl

theorem run_places [LawfulHost Buffer] {size : Nat} (content : Bytes)
    (sourceSize : size = content.size) (movable : Movable size site.bytes.size moves) :
    ∃ later,
      ((moves.map fun move => (content.extract move.1.offset move.1.stop, move.2)).forM
        fun entry => do
          demand (entry.1.size ≤ entry.2.length) .shorterSegment
          writeAt entry.2.offset entry.1 : Store Buffer Unit) site = .ok () later ∧
      later.bytes = Segment.writeAll site.bytes (carried content moves) ∧
      later.events = site.events ∧ site.Continues later := by
  induction moves generalizing site with
  | nil => exact ⟨site, rfl, rfl, rfl, Site.Continues.refl site⟩
  | cons move rest inductionHypothesis =>
    have source := movable.source move List.mem_cons_self
    have target := movable.target move List.mem_cons_self
    have fits := movable.fits move List.mem_cons_self
    have size_content : (content.extract move.1.offset move.1.stop).size = move.1.length := by
      simp only [Segment.stop] at source ⊢
      rw [Array.size_extract]
      omega
    have inside : move.2.offset + (content.extract move.1.offset move.1.stop).size ≤
        site.bytes.size := by
      rw [size_content]
      simp only [Segment.stop] at target
      omega
    let written := site.put
      (site.bytes.patch move.2.offset (content.extract move.1.offset move.1.stop).toList)
    have bytesWritten : written.bytes =
        site.bytes.patch move.2.offset (content.extract move.1.offset move.1.stop).toList :=
      Site.bytes_put (Bytes.size_patch _ _ _)
    have movableRest : Movable size written.bytes.size rest := by
      rw [bytesWritten, Bytes.size_patch]
      exact movable.tail
    obtain ⟨later, run, bytesLater, events, continues⟩ := inductionHypothesis movableRest
    refine ⟨later, ?_, ?_, events, (Site.Continues.put _ _).trans continues⟩
    · rw [List.map_cons, Edit.run_forM_cons]
      simp only [Edit.run_bind, size_content, demand_of fits, Edit.run_lift_ok, run_writeAt inside]
      exact run
    · rw [bytesLater, bytesWritten]
      rfl

/-- Moving segments resizes the block and writes the old contents to the new places. -/
theorem run_relocate [LawfulHost Buffer] (movable : Movable site.bytes.size length moves)
    {buffer : Buffer} (resized : Host.resize site.buffer length = .ok buffer) :
    ∃ later, relocate moves length site = .ok () later ∧
      later.bytes = Segment.writeAll (Host.bytes buffer) (carried site.bytes moves) ∧
      later.events = site.events ∧ site.Continues later := by
  have size : (site.withBuffer buffer).bytes.size = length :=
    LawfulHost.size_resize site.buffer buffer length resized
  obtain ⟨later, run, bytesLater, events, continues⟩ :=
    @run_places _ _ (site.withBuffer buffer) moves _ _ site.bytes rfl (by rw [size]; exact movable)
  refine ⟨later, ?_, bytesLater, events, (Site.Continues.resize resized).trans continues⟩
  simp only [relocate, Edit.run_bind, run_bytes, run_saves movable.source, run_resize_ok resized]
  exact run

/-- A refused resize leaves the block as it was. -/
theorem run_relocate_error (inside : ∀ move ∈ moves, move.1.stop ≤ site.bytes.size)
    {error : StorageError} (refused : Host.resize site.buffer length = .error error) :
    relocate moves length site = .error (.storage error) site := by
  simp only [relocate, Edit.run_bind, run_bytes, run_saves inside, run_resize_error refused]

/-- A moved segment starts with the bytes it had before. -/
theorem getElem?_carried {content block : Bytes} (movable : Movable content.size block.size moves)
    (disjoint : (moves.map Prod.snd).Pairwise Segment.Disjoint) {old new : Segment}
    (member : (old, new) ∈ moves) {position : Nat} (below : position < old.length) :
    (Segment.writeAll block (carried content moves))[new.offset + position]? =
      content[old.offset + position]? := by
  have source : old.offset + old.length ≤ content.size := movable.source _ member
  have size (move : Segment × Segment) (inMoves : move ∈ moves) :
      (content.extract move.1.offset move.1.stop).toList.length = move.1.length := by
    have bound := movable.source move inMoves
    simp only [Segment.stop] at bound ⊢
    rw [Array.length_toList, Array.size_extract]
    omega
  have stands := @Segment.stands_writeAll block (carried content moves)
    (by simpa [carried, Function.comp_def] using disjoint)
    (by
      intro entry inCarried
      obtain ⟨move, inMoves, rfl⟩ := List.mem_map.mp inCarried
      simp only [size move inMoves]
      exact movable.fits move inMoves)
    (by
      intro entry inCarried
      obtain ⟨move, inMoves, rfl⟩ := List.mem_map.mp inCarried
      exact movable.target move inMoves)
    new _ (List.mem_map.mpr ⟨(old, new), member, rfl⟩)
  rw [stands position (by rw [size _ member]; exact below), Array.getElem?_toList]
  simp only [Segment.stop]
  rw [Bytes.getElem?_extract_width, if_pos below]

/-- Segments that are moved to disjoint places start with the bytes they had before. -/
theorem run_relocate_disjoint [LawfulHost Buffer] (movable : Movable site.bytes.size length moves)
    (disjoint : (moves.map Prod.snd).Pairwise Segment.Disjoint) {buffer : Buffer}
    (resized : Host.resize site.buffer length = .ok buffer) :
    ∃ later, relocate moves length site = .ok () later ∧ later.bytes.size = length ∧
      (∀ move ∈ moves, ∀ position, position < move.1.length →
        later.bytes[move.2.offset + position]? = site.bytes[move.1.offset + position]?) ∧
      site.Continues later := by
  have size := LawfulHost.size_resize site.buffer buffer length resized
  obtain ⟨later, run, bytesLater, -, continues⟩ := run_relocate movable resized
  refine ⟨later, run, ?_, fun move member position below => ?_, continues⟩
  · rw [bytesLater, Segment.size_writeAll, size]
  · rw [bytesLater]
    exact getElem?_carried (by rw [size]; exact movable) disjoint member below

end Store

end PackedStore
