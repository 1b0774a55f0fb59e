/-
This file treats hosts that refuse what exceeds a limit and grant everything else. Two
of them with the same limit are in concert, whatever they put into the bytes that they
add. Buffers of blocks are such hosts; so are buffers that fill what they add with any
byte.
-/

import PackedStore.Proofs.Host.BlockBuffer
import PackedStore.Proofs.Host.Scripts

namespace PackedStore

/-- The length does not exceed the limit and can be allocated. -/
def Grants (limit : Option Nat) (length : Nat) : Prop :=
  limit.any (· < length) = false ∧ blocksFor length * blockAlign ≤ allocationLimit

instance (limit : Option Nat) (length : Nat) : Decidable (Grants limit length) :=
  inferInstanceAs (Decidable (_ ∧ _))

/-- A length is granted up to the limit. -/
theorem grants_iff_le {limit : Option Nat} {length : Nat} :
    Grants limit length ↔
      (∀ bound ∈ limit, length ≤ bound) ∧ blocksFor length * blockAlign ≤ allocationLimit := by
  cases limit <;> simp [Grants]

theorem grants_zero (limit : Option Nat) : Grants limit 0 := by
  cases limit <;> exact ⟨rfl, Nat.zero_le _⟩

/-- What is granted for a length is granted for every shorter one. -/
theorem Grants.mono {limit : Option Nat} {length shorter : Nat} (grants : Grants limit length)
    (le : shorter ≤ length) : Grants limit shorter := by
  obtain ⟨within, small⟩ := grants
  refine ⟨?_, ?_⟩
  · cases limit with
    | none => rfl
    | some bound =>
      simp only [Option.any_some, decide_eq_false_iff_not, Nat.not_lt] at within ⊢
      exact Nat.le_trans le within
  · unfold blocksFor at small ⊢
    refine Nat.le_trans (Nat.mul_le_mul_right _ (Nat.div_le_div_right ?_)) small
    exact Nat.add_le_add_right le _

/-- Hosts that refuse what exceeds their limit, and nothing else. -/
structure Limited {Buffer : Type} [Host Buffer] (limit : Buffer → Option Nat) : Prop where
  write : ∀ buffer content, limit (Host.write buffer content) = limit buffer
  resized : ∀ buffer length resized, Host.resize buffer length = .ok resized →
    limit resized = limit buffer
  grants : ∀ buffer length, Grants (limit buffer) length →
    ∃ resized, Host.resize buffer length = .ok resized
  refuses : ∀ buffer length, ¬ Grants (limit buffer) length →
    Host.resize buffer length = .error (.allocationFailed length)

section

variable {Buffer : Type} [Host Buffer] {limit : Buffer → Option Nat} (limited : Limited limit)

include limited

theorem Limited.grants_iff (buffer : Buffer) (length : Nat) :
    Grants (limit buffer) length ↔ ∃ resized, Host.resize buffer length = .ok resized := by
  refine ⟨limited.grants buffer length, fun ⟨resized, granted⟩ => ?_⟩
  exact Decidable.byContradiction fun exceeded =>
    absurd (granted.symm.trans (limited.refuses buffer length exceeded)) (by simp)

theorem Limited.not_grants {buffer : Buffer} {length : Nat} {error : StorageError}
    (refused : Host.resize buffer length = .error error) : ¬ Grants (limit buffer) length := by
  rw [limited.grants_iff]
  rintro ⟨resized, granted⟩
  exact absurd (granted.symm.trans refused) (by simp)

end

/-- Hosts with the same limit answer the same requests in the same way. -/
theorem Limited.concerted {Left Right : Type} [Host Left] [Host Right] {limit : Left → Option Nat}
    {other : Right → Option Nat} (limited : Limited limit) (limitedOther : Limited other)
    (bound : Option Nat) : Concerted fun left right => limit left = bound ∧ other right = bound where
  writeLeft left right content := fun ⟨same, sameOther⟩ =>
    ⟨(limited.write left content).trans same, sameOther⟩
  writeRight left right content := fun ⟨same, sameOther⟩ =>
    ⟨same, (limitedOther.write right content).trans sameOther⟩
  granted left right length resized := fun ⟨same, sameOther⟩ granted => by
    have within := (limited.grants_iff left length).mpr ⟨resized, granted⟩
    rw [same, ← sameOther] at within
    obtain ⟨again, grantedOther⟩ := limitedOther.grants right length within
    exact ⟨again, grantedOther, (limited.resized left length resized granted).trans same,
      (limitedOther.resized right length again grantedOther).trans sameOther⟩
  refused left right length error := fun ⟨same, sameOther⟩ refused => by
    have exceeded := limited.not_grants refused
    obtain rfl := Except.error.inj (refused.symm.trans (limited.refuses left length exceeded))
    rw [same, ← sameOther] at exceeded
    exact limitedOther.refuses right length exceeded

/-! ### Scripts within a limit -/

/-- What a script comes to in a host with a limit. -/
def Script.within {σ α : Type} (limit : Option Nat) : Script σ α → Except Failure α × σ
  | ends outcome state => (outcome, state)
  | asks length stays rest =>
    if Grants limit length then rest.within limit
    else (.error (.storage (.allocationFailed length)), stays)

section

variable {Buffer σ α : Type} [Host Buffer] {limit : Buffer → Option Nat}
  (limited : Limited limit)

include limited

theorem Limited.rewrites {buffer later : Buffer} (rewrites : Host.Rewrites buffer later) :
    limit later = limit buffer := by
  induction rewrites with
  | refl => rfl
  | write _ content inductionHypothesis => exact (limited.write _ content).trans inductionHypothesis

/-- A host with a limit leaves nothing open: an operation comes to what its script does. -/
theorem Limited.enacted {Stands : Site Buffer → σ → Prop} {script : Script σ α} {buffer : Buffer}
    {result : Except Failure α × Site Buffer} (enacted : script.Enacted Stands buffer result) :
    result.1 = (script.within (limit buffer)).1 ∧ limit result.2.buffer = limit buffer ∧
      Stands result.2 (script.within (limit buffer)).2 := by
  induction enacted with
  | ended rewrites stands => exact ⟨rfl, limited.rewrites rewrites, stands⟩
  | @refused buffer length stays rest error later rewrites refused stands =>
    have same := limited.rewrites rewrites
    have exceeded : ¬ Grants (limit buffer) length := by
      rw [← same]
      exact limited.not_grants refused
    have isError := limited.refuses later.buffer length (same ▸ exceeded)
    obtain rfl := Except.error.inj (refused.symm.trans isError)
    rw [Script.within, if_neg exceeded]
    exact ⟨rfl, same, stands⟩
  | @granted buffer asked resized length stays rest result rewrites granted _ inductionHypothesis =>
    have same := limited.rewrites rewrites
    have within : Grants (limit buffer) length := by
      rw [← same]
      exact (limited.grants_iff asked length).mpr ⟨resized, granted⟩
    rw [limited.resized asked length resized granted, same] at inductionHypothesis
    rw [Script.within, if_pos within]
    exact inductionHypothesis

end

theorem BlockBuffer.limited : Limited BlockBuffer.limit where
  write _ _ := rfl
  resized _ _ _ granted := (resize_eq_ok granted).2.1
  grants buffer length within := by
    show ∃ resized, buffer.resize length = .ok resized
    unfold resize
    rw [if_neg (by rw [within.1]; simp), if_neg (Nat.not_lt_of_le within.2)]
    split <;> exact ⟨_, rfl⟩
  refuses buffer length exceeded := by
    show buffer.resize length = _
    unfold resize
    by_cases above : buffer.limit.any (· < length) = true
    · rw [if_pos above]
    · have large : allocationLimit < blocksFor length * blockAlign :=
        Nat.lt_of_not_le fun small => exceeded ⟨by simpa using above, small⟩
      have positive : length ≠ 0 := by
        rintro rfl
        exact absurd large (by decide)
      rw [if_neg above, if_neg positive, if_pos large]

/-- A buffer of blocks shows how long a block is in any host with the same limit, and that the limit
allows it. -/
theorem Limited.concerted_granted {Buffer : Type} [Host Buffer] {limit : Buffer → Option Nat}
    (limited : Limited limit) (bound : Option Nat) :
    Concerted fun buffer (shadow : BlockBuffer) =>
      (limit buffer = bound ∧ shadow.limit = bound) ∧ Grants bound shadow.length where
  writeLeft buffer shadow content := fun ⟨same, within⟩ =>
    ⟨(limited.concerted BlockBuffer.limited bound).writeLeft buffer shadow content same, within⟩
  writeRight buffer shadow content := fun ⟨same, within⟩ =>
    ⟨(limited.concerted BlockBuffer.limited bound).writeRight buffer shadow content same, within⟩
  granted buffer shadow length resized := fun ⟨same, _⟩ granted => by
    obtain ⟨other, grantedOther, sameLater⟩ :=
      (limited.concerted BlockBuffer.limited bound).granted _ _ _ _ same granted
    refine ⟨other, grantedOther, sameLater, ?_⟩
    rw [(BlockBuffer.resize_eq_ok grantedOther).1]
    exact Decidable.byContradiction fun exceeded => absurd (grantedOther.symm.trans
      (BlockBuffer.limited.refuses shadow length (by rw [same.2]; exact exceeded))) (by simp)
  refused buffer shadow length error := fun ⟨same, _⟩ =>
    (limited.concerted BlockBuffer.limited bound).refused _ _ _ _ same

/-! ### Filled buffers -/

/-- A buffer that fills what a resize adds with one byte. -/
structure FilledBuffer where
  content : Bytes
  filler : UInt8
  limit : Option Nat

namespace FilledBuffer

def empty (filler : UInt8) (limit : Option Nat) : FilledBuffer := ⟨#[], filler, limit⟩

/-- The content cut or filled to a length. -/
def refill (buffer : FilledBuffer) (length : Nat) : Bytes :=
  buffer.content.extract 0 length ++ Array.replicate (length - buffer.content.size) buffer.filler

instance : Host FilledBuffer where
  bytes := content
  write buffer content := { buffer with content }
  resize buffer length :=
    if Grants buffer.limit length then .ok { buffer with content := buffer.refill length }
    else .error (.allocationFailed length)

variable {buffer resized : FilledBuffer} {length : Nat}

theorem resize_eq_ok (granted : Host.resize buffer length = .ok resized) :
    resized = { buffer with content := buffer.refill length } := by
  by_cases within : Grants buffer.limit length
  · exact (Except.ok.inj ((if_pos within).symm.trans granted)).symm
  · exact absurd ((if_neg within).symm.trans granted) (by simp)

instance : LawfulHost FilledBuffer where
  bytes_write _ _ _ := rfl
  size_resize buffer resized length granted := by
    rw [resize_eq_ok granted]
    show (buffer.refill length).size = length
    simp only [refill, Array.size_append, Array.size_extract, Array.size_replicate]
    omega
  getElem?_resize buffer resized length position granted below inside := by
    have front : position < (buffer.content.extract 0 length).size := by
      rw [Array.size_extract]
      exact Nat.lt_min.mpr ⟨by omega, inside⟩
    rw [resize_eq_ok granted]
    show (buffer.refill length)[position]? = buffer.content[position]?
    rw [refill, Array.getElem?_append_left front]
    have extracted := Bytes.getElem?_extract_width buffer.content 0 length position
    rwa [Nat.zero_add, Nat.zero_add, if_pos below] at extracted

theorem limited : Limited FilledBuffer.limit where
  write _ _ := rfl
  resized _ _ _ granted := by rw [resize_eq_ok granted]
  grants _ _ within := ⟨_, if_pos within⟩
  refuses _ _ exceeded := if_neg exceeded

end FilledBuffer

end PackedStore
