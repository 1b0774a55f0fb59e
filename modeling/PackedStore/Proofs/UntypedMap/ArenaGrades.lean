/-
This file says what a step does to the accounts of an arena. A value moves only to a
place with a larger alignment than its old one has, and every alignment that its
place suits is suited from then on. So places have grades that rise with every move,
and an account charged for its grade pays for all the words its value has taken.
-/

import Mathlib.Algebra.Order.BigOperators.Group.List
import Mathlib.Algebra.Order.Group.Nat
import PackedStore.Proofs.UntypedMap.ArenaAccounts

namespace PackedStore

/-! ### Grades of places -/

/-- Of two alignments, one is a multiple of the other. -/
theorem IsAlign.dvd_total {align other : Nat} (first : IsAlign align) (second : IsAlign other) :
    align ∣ other ∨ other ∣ align := by
  obtain ⟨exponent, -, rfl⟩ := first
  obtain ⟨another, -, rfl⟩ := second
  rcases Nat.le_total exponent another with le | le
  · exact Or.inl (Nat.pow_dvd_pow 2 le)
  · exact Or.inr (Nat.pow_dvd_pow 2 le)

/-- A place that suits an alignment the old one does not suit is no worse for any other one. -/
theorem IsAlign.dvd_of_unsuited {align other place moved : Nat} (supported : IsAlign align)
    (wanted : IsAlign other) (unsuited : ¬ align ∣ place * wordSize)
    (suits : align ∣ moved * wordSize) (had : other ∣ place * wordSize) :
    other ∣ moved * wordSize := by
  rcases supported.dvd_total wanted with divides | divides
  · exact absurd (Nat.dvd_trans divides had) unsuited
  · exact Nat.dvd_trans divides suits

/-- How many of the alignments eight and sixteen a place suits. All smaller ones suit every place. -/
def placeGrade (place : Nat) : Nat :=
  if 16 ∣ place * wordSize then 2 else if 8 ∣ place * wordSize then 1 else 0

/-- Every place suits the small alignments. -/
theorem IsAlign.of_unsuited {align place : Nat} (supported : IsAlign align)
    (unsuited : ¬ align ∣ place * wordSize) : align = 8 ∨ align = 16 := by
  unfold wordSize at unsuited
  rcases isAlign_iff.mp supported with rfl | rfl | rfl | rfl | rfl
  · omega
  · omega
  · omega
  · exact Or.inl rfl
  · exact Or.inr rfl

theorem placeGrade_lt {align place moved : Nat} (supported : IsAlign align)
    (unsuited : ¬ align ∣ place * wordSize) (suits : align ∣ moved * wordSize) :
    placeGrade place < placeGrade moved := by
  have either := supported.of_unsuited unsuited
  unfold placeGrade wordSize at *
  rcases either with rfl | rfl
  · rw [if_neg (show ¬ 16 ∣ place * 4 by omega), if_neg unsuited, if_pos suits]
    split <;> decide
  · rw [if_neg unsuited, if_pos suits]
    split <;> decide

namespace UntypedMap

/-! ### What accounts cost -/

/-- The words that a value has taken so far at most, the places it has left included. -/
def Account.charge (account : Account) : Nat :=
  (placeGrade account.place + 1) * wordsTaken account.size

namespace Tally

variable {before after : Tally}

/-- The words that all values have taken so far at most. -/
def charge (tally : Tally) : Nat :=
  (tally.accounts.map Account.charge).sum

theorem sum_charge_set {accounts : List Account} {slot : Nat} {account : Account}
    (there : accounts[slot]? = some account) (moved : Account) :
    ((accounts.set slot moved).map Account.charge).sum + account.charge =
      (accounts.map Account.charge).sum + moved.charge := by
  induction accounts generalizing slot with
  | nil => exact absurd there (by simp)
  | cons first rest inductionHypothesis =>
    cases slot with
    | zero =>
      obtain rfl := Option.some.inj there
      simp only [List.set_cons_zero, List.map_cons, List.sum_cons]
      omega
    | succ slot =>
      have behind := inductionHypothesis there
      simp only [List.set_cons_succ, List.map_cons, List.sum_cons]
      omega

/-- The accounts pay for the words in use. -/
def Covered (tally : Tally) : Prop :=
  tally.used ≤ tally.charge

/-- A step takes no more words than the accounts are charged for. -/
theorem Covered.step (covered : before.Covered) (step : before.Step after) : after.Covered := by
  unfold Covered at covered ⊢
  cases step with
  | kept => exact covered
  | @opened entryKey size align _ opens =>
    cases opens with
    | @intro place stop _ within =>
      have charged : wordsTaken size ≤ (⟨entryKey, size, place⟩ : Account).charge :=
        Nat.le_mul_of_pos_left _ (Nat.succ_pos _)
      simp only [charge, List.map_append, List.sum_append, List.map_singleton, List.sum_singleton]
        at covered ⊢
      omega
  | moved supported moves =>
    cases moves with
    | @intro account place stop there isSize _ unsuited suits within =>
      have better := placeGrade_lt supported unsuited suits
      have paid := sum_charge_set there { account with place }
      have charged : account.charge + wordsTaken account.size ≤
          ({ account with place } : Account).charge := by
        rw [Account.charge, ← Nat.succ_mul]
        exact Nat.mul_le_mul_right _ (Nat.succ_le_succ better)
      rw [← isSize] at within
      simp only [charge] at covered ⊢
      omega

/-- The slot of a key. -/
def find (tally : Tally) (wanted : Bytes) : Option Nat :=
  (tally.accounts.map Account.key).findIdx? fun key => key = wanted

/-- The account of a key. -/
def account? (tally : Tally) (wanted : Bytes) : Option Account :=
  (tally.find wanted).bind fun slot => tally.accounts[slot]?

variable {wanted : Bytes} {slot size align : Nat}

/-- The keys stay in their slots when a value moves. -/
theorem Moves.find_eq (moves : before.Moves slot size align after) (wanted : Bytes) :
    after.find wanted = before.find wanted := by
  cases moves with
  | intro there =>
    obtain ⟨inside, rfl⟩ := List.getElem?_eq_some_iff.mp there
    refine congrArg (List.findIdx? fun key => key = wanted) (List.ext_getElem? fun other => ?_)
    rw [List.getElem?_map, List.getElem?_map, List.getElem?_set]
    by_cases same : slot = other
    · rw [if_pos same, if_pos inside, ← same, List.getElem?_eq_getElem inside]
      rfl
    · rw [if_neg same]

/-- The keys that are there stay in their slots when one more comes. -/
theorem Opens.find_eq {entryKey : Bytes} (opens : before.Opens entryKey size align after)
    (found : before.find wanted = some slot) : after.find wanted = some slot := by
  cases opens with
  | intro =>
    rw [find, List.map_append, List.findIdx?_append, ← find, found]
    rfl

/-- A value at another place, because its old place does not suit an alignment. -/
inductive Shifts (account : Account) : Account → Prop where
  | stays : Shifts account account
  | moves {align place : Nat} (supported : IsAlign align) (large : 4 < account.size)
      (unsuited : ¬ align ∣ account.place * wordSize) (suits : align ∣ place * wordSize) :
      Shifts account { account with place }

theorem account?_of_find (found : before.find wanted = some slot) :
    before.account? wanted = before.accounts[slot]? := by
  rw [account?, found, Option.bind_some]

/-- A step shifts the account of a key that is there. -/
theorem Step.account? (step : before.Step after) {account : Account}
    (there : before.account? wanted = some account) :
    ∃ shifted, after.account? wanted = some shifted ∧ Shifts account shifted := by
  obtain ⟨slot, found, isAccount⟩ := Option.bind_eq_some_iff.mp there
  cases step with
  | kept => exact ⟨account, there, .stays⟩
  | opened opens =>
    refine ⟨account, ?_, .stays⟩
    rw [account?_of_find (opens.find_eq found)]
    cases opens with
    | intro =>
      rw [← isAccount]
      exact List.getElem?_append_left (List.getElem?_eq_some_iff.mp isAccount).1
  | @moved other size align _ supported moves =>
    rw [account?_of_find ((moves.find_eq wanted).trans found)]
    cases moves with
    | @intro moved place stop thereMoved isSize large unsuited suits within =>
      rw [List.getElem?_set]
      by_cases same : other = slot
      · subst same
        obtain rfl := Option.some.inj (thereMoved.symm.trans isAccount)
        rw [if_pos rfl, if_pos (List.getElem?_eq_some_iff.mp isAccount).1]
        exact ⟨_, rfl, .moves supported (isSize ▸ large) unsuited suits⟩
      · rw [if_neg same]
        exact ⟨account, isAccount, .stays⟩

/-- A key that a value has been stored for has an account, whose place suits the value. -/
theorem Stores.account? {entryKey : Bytes} {payload : Payload}
    (stores : before.Stores (before.find entryKey) entryKey payload after) :
    ∃ account, after.account? entryKey = some account ∧
      (4 < payload.bytes.size → payload.align ∣ account.place * wordSize) := by
  obtain ⟨-, either⟩ := stores
  cases found : before.find entryKey with
  | none =>
    rw [found] at either
    cases either with
    | @intro place stop suits within =>
      let opened : Account := ⟨entryKey, payload.bytes.size, place⟩
      have isSlot : find ⟨before.accounts ++ [opened], stop⟩ entryKey =
          some before.accounts.length := by
        rw [find, List.map_append, List.findIdx?_append, ← find, found, List.map_singleton,
          List.findIdx?_singleton, if_pos (decide_eq_true rfl), List.length_map]
        exact congrArg some (Nat.zero_add _)
      exact ⟨opened, (account?_of_find isSlot).trans List.getElem?_concat_length, suits⟩
  | some slot =>
    rw [found] at either
    cases either with
    | @stays account there suits => exact ⟨account, (account?_of_find found).trans there, suits⟩
    | moves moves =>
      rw [account?_of_find ((moves.find_eq entryKey).trans found)]
      cases moves with
      | @intro moved place stop there isSize large unsuited suits within =>
        rw [List.getElem?_set, if_pos rfl, if_pos (List.getElem?_eq_some_iff.mp there).1]
        exact ⟨_, rfl, fun _ => suits⟩

end Tally

end UntypedMap

end PackedStore
