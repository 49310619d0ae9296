import Mathlib.Logic.Function.Basic
import Mathlib.Data.Option.Basic

/-!
# Advisory locks on files

Processes open files, lock them exclusively without waiting, and lose their locks when they
close the descriptor or end. A lock belongs to the description that was opened, not to the
process, so a second opening of the file is refused even in the process that holds the lock.
A description is named by its opener, who has at most one at a time.
-/

namespace Foundation.AdvisoryLocks

set_option autoImplicit false

structure Openers (Opener Process File : Type*) where
  process : Opener → Process
  file : Opener → File

/-- The descriptions that the descriptors of each process stand for, and the one that holds the
lock of each file. -/
structure Locks (Opener Process File : Type*) where
  descriptors : Process → Nat → Option Opener := fun _ _ => none
  lockedBy : File → Option Opener := fun _ => none

namespace Locks

variable {Opener Process File : Type*}

section Descriptors

variable [DecidableEq Process] {locks : Locks Opener Process File}

def setDescriptor (locks : Locks Opener Process File) (process : Process) (number : Nat)
    (description : Option Opener) : Locks Opener Process File :=
  { locks with
    descriptors := Function.update locks.descriptors process
      (Function.update (locks.descriptors process) number description) }

/-- `open`, with the number of a descriptor that is not in use. -/
def openFile (openers : Openers Opener Process File) (locks : Locks Opener Process File)
    (opener : Opener) (number : Nat) : Locks Opener Process File :=
  locks.setDescriptor (openers.process opener) number (some opener)

theorem set_descriptor_own (process : Process) (number : Nat) (description : Option Opener) :
    (locks.setDescriptor process number description).descriptors process number = description := by
  unfold setDescriptor
  dsimp only
  rw [Function.update_self, Function.update_self]

theorem set_descriptor_other {process other : Process} {number kept : Nat} {opener : Opener}
    {description : Option Opener} (foreign : locks.descriptors process number ≠ some opener)
    (found : locks.descriptors other kept = some opener) :
    (locks.setDescriptor process number description).descriptors other kept = some opener := by
  unfold setDescriptor
  dsimp only
  by_cases sameProcess : other = process
  · subst sameProcess
    rw [Function.update_self]
    by_cases sameNumber : kept = number
    · subst sameNumber
      exact absurd found foreign
    · rw [Function.update_of_ne sameNumber]
      exact found
  · rw [Function.update_of_ne sameProcess]
    exact found

/-- A number that was not in use, given and taken back. -/
theorem set_descriptor_back {process : Process} {number : Nat} {description : Option Opener}
    (free : locks.descriptors process number = none) :
    (locks.setDescriptor process number description).setDescriptor process number none = locks := by
  unfold setDescriptor
  dsimp only
  rw [Function.update_self, Function.update_idem, Function.update_idem, ← free,
    Function.update_eq_self, Function.update_eq_self]

@[simp] theorem set_descriptor_locked (process : Process) (number : Nat)
    (description : Option Opener) :
    (locks.setDescriptor process number description).lockedBy = locks.lockedBy := rfl

end Descriptors

section Holders

variable [DecidableEq File] {locks : Locks Opener Process File}

def setLock (locks : Locks Opener Process File) (file : File) (holder : Option Opener) :
    Locks Opener Process File :=
  { locks with lockedBy := Function.update locks.lockedBy file holder }

@[simp] theorem set_lock_descriptors (file : File) (holder : Option Opener) :
    (locks.setLock file holder).descriptors = locks.descriptors := rfl

variable [DecidableEq Opener] (openers : Openers Opener Process File)

/-- `flock` with `LOCK_EX | LOCK_NB`; nothing where it fails. -/
def lock (locks : Locks Opener Process File) (process : Process) (number : Nat) :
    Option (Locks Opener Process File) :=
  match locks.descriptors process number with
  | none => none
  | some opener =>
      match locks.lockedBy (openers.file opener) with
      | none => some (locks.setLock (openers.file opener) (some opener))
      | some holder => if holder = opener then some locks else none

def unlock (locks : Locks Opener Process File) (process : Process) (number : Nat) :
    Locks Opener Process File :=
  match locks.descriptors process number with
  | none => locks
  | some opener =>
      if locks.lockedBy (openers.file opener) = some opener then
        locks.setLock (openers.file opener) none
      else locks

variable {openers}

@[simp] theorem unlock_descriptors (process : Process) (number : Nat) :
    (locks.unlock openers process number).descriptors = locks.descriptors := by
  unfold unlock
  split
  · rfl
  · split <;> rfl

theorem lock_own {opener : Opener} {number : Nat}
    (found : locks.descriptors (openers.process opener) number = some opener)
    (free : locks.lockedBy (openers.file opener) = none) :
    locks.lock openers (openers.process opener) number =
      some (locks.setLock (openers.file opener) (some opener)) := by
  rw [lock, found]
  dsimp only
  rw [free]

theorem lock_refused {opener holder : Opener} {number : Nat}
    (found : locks.descriptors (openers.process opener) number = some opener)
    (held : locks.lockedBy (openers.file opener) = some holder) (foreign : holder ≠ opener) :
    locks.lock openers (openers.process opener) number = none := by
  rw [lock, found]
  dsimp only
  rw [held]
  exact if_neg foreign

theorem unlock_own {opener : Opener} {number : Nat}
    (found : locks.descriptors (openers.process opener) number = some opener)
    (held : locks.lockedBy (openers.file opener) = some opener) :
    locks.unlock openers (openers.process opener) number =
      locks.setLock (openers.file opener) none := by
  rw [unlock, found]
  exact if_pos held

theorem unlock_foreign {opener : Opener} {number : Nat}
    (found : locks.descriptors (openers.process opener) number = some opener)
    (foreign : locks.lockedBy (openers.file opener) ≠ some opener) :
    locks.unlock openers (openers.process opener) number = locks := by
  rw [unlock, found]
  exact if_neg foreign

end Holders

section Ends

variable [DecidableEq Process] {openers : Openers Opener Process File}
  {locks : Locks Opener Process File}

def close [DecidableEq Opener] [DecidableEq File] (openers : Openers Opener Process File)
    (locks : Locks Opener Process File) (process : Process) (number : Nat) :
    Locks Opener Process File :=
  (locks.unlock openers process number).setDescriptor process number none

def exit (openers : Openers Opener Process File) (locks : Locks Opener Process File)
    (process : Process) : Locks Opener Process File where
  descriptors := Function.update locks.descriptors process fun _ => none
  lockedBy file := (locks.lockedBy file).filter fun holder => openers.process holder ≠ process

theorem exit_descriptor {process other : Process} {number : Nat} {opener : Opener}
    (alive : other ≠ process) (found : locks.descriptors other number = some opener) :
    (exit openers locks process).descriptors other number = some opener := by
  unfold exit
  dsimp only
  rw [Function.update_of_ne alive]
  exact found

theorem exit_locked_iff {process : Process} {file : File} {opener : Opener} :
    (exit openers locks process).lockedBy file = some opener ↔
      locks.lockedBy file = some opener ∧ openers.process opener ≠ process := by
  rw [exit, Option.filter_eq_some_iff, decide_eq_true_eq]

end Ends

end Locks

end Foundation.AdvisoryLocks
