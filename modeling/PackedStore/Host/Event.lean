/-
This file holds the events that containers report while they work: growth of
slots and arenas, rehashing, values that move, and rows or elements that go.
-/

import PackedStore.Failure

namespace PackedStore

/-- How much attention an event deserves. -/
inductive Level where
  | debug
  | trace
deriving DecidableEq, Repr

def Level.text : Level → String
  | .debug => "DEBUG"
  | .trace => "TRACE"

/-- Something that a container did to its block. -/
inductive Event where
  | slotsGrow (kind : ContainerKind) (before after : Nat)
  | arenaGrows (kind : ContainerKind) (before after : Nat)
  | rehashed (before after : Nat)
  | dimensionsRehashed (dimensions before after : Nat)
  | valueMoved (slot offset : Nat)
  | elementRemoved (index length : Nat)
  | flattened (rows holes capacity : Nat)
  | rowsShifted (count start : Nat)
deriving DecidableEq, Repr

namespace Event

/-- Growth, flattening and shifting are rare; the rest happens inside of them or more often. -/
def level : Event → Level
  | .slotsGrow .. | .arenaGrows .. | .flattened .. | .rowsShifted .. => .debug
  | .rehashed .. | .dimensionsRehashed .. | .valueMoved .. | .elementRemoved .. => .trace

/-- The name of a container in events. -/
def subject : ContainerKind → String
  | .untypedMap => "untyped map"
  | .untypedSequence => "untyped sequence"
  | .indexedMap => "indexed map"

/-- What the capacity of a container counts. -/
def slotUnit : ContainerKind → String
  | .untypedSequence => "elements"
  | .untypedMap | .indexedMap => "slots"

/-- What the arena of a container counts. -/
def arenaUnit : ContainerKind → String
  | .untypedSequence => "bytes"
  | .untypedMap | .indexedMap => "words"

/-- The text of an event. -/
def message : Event → String
  | .slotsGrow kind before after =>
    s!"{subject kind} grows from {before} to {after} {slotUnit kind}"
  | .arenaGrows kind before after =>
    s!"{subject kind} arena grows from {before} to {after} {arenaUnit kind}"
  | .rehashed before after => s!"rehashed {before} buckets into {after} buckets"
  | .dimensionsRehashed dimensions before after =>
    s!"rehashed {dimensions} dimensions of {before} buckets into {after} buckets"
  | .valueMoved slot offset => s!"realigned value at slot {slot} to arena word {offset}"
  | .elementRemoved index length =>
    s!"removed element {index}, arena compacted to {length} bytes"
  | .flattened rows holes capacity =>
    s!"flattened indexed map with {rows} rows and {holes} holes into {capacity} slots"
  | .rowsShifted count start => s!"shifted {count} rows out of an indexed map at slot {start}"

end Event

end PackedStore
