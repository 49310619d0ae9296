import StreamDataProcessor.Server.UnixSocketServer

/-!
# Who owns a socket path

A server that has got past `flock` holds the lock of its path until it closes the lock file or
its process ends, and only such a server removes or makes the file at the path. So no two of
them listen at one path, and the file at the path is that of the one that listens.
-/

namespace StreamDataProcessor.Server.UnixSocketServer

open Foundation.Machine Foundation.AdvisoryLocks

set_option autoImplicit false

variable {Server Process Path : Type*} {servers : Openers Server Process Path}
  {system after : System Server Process Path}

/-- What the phases of the servers say of the descriptors, the locks and the files. -/
structure Sound (servers : Openers Server Process Path) (system : System Server Process Path) :
    Prop where
  descriptor : ∀ server, (system.phase server).hasDescriptor = true →
    ∃ number, system.socketLockFd server = some number ∧
      system.locks.descriptors (servers.process server) number = some server
  lock : ∀ path server, system.locks.lockedBy path = some server ↔
    path = servers.file server ∧ (system.phase server).holdsLock = true
  bound : ∀ server, (system.phase server).isBound = true →
    system.boundTo (servers.file server) = some server

/-- Of the servers of a path one alone holds the lock. -/
theorem holder_unique (sound : Sound servers system) {first second : Server}
    (inFirst : (system.phase first).holdsLock = true)
    (inSecond : (system.phase second).holdsLock = true)
    (same : servers.file first = servers.file second) : first = second := by
  have ofFirst := (sound.lock (servers.file first) first).mpr ⟨rfl, inFirst⟩
  have ofSecond := (sound.lock (servers.file first) second).mpr ⟨same, inSecond⟩
  exact Option.some.inj (ofFirst.symm.trans ofSecond)

theorem path_free_iff (sound : Sound servers system) (path : Path) :
    system.locks.lockedBy path = none ↔
      ∀ other, servers.file other = path → (system.phase other).holdsLock = false := by
  constructor
  · intro free other same
    rw [← Bool.not_eq_true]
    intro holds
    have locked := (sound.lock path other).mpr ⟨same.symm, holds⟩
    exact Option.some_ne_none other (locked.symm.trans free)
  · intro none
    cases held : system.locks.lockedBy path with
    | none => rfl
    | some holder =>
        obtain ⟨same, holds⟩ := (sound.lock path holder).mp held
        rw [none holder same.symm] at holds
        cases holds

theorem holds_of_bound {phase : Phase} (isBound : phase.isBound = true) :
    phase.holdsLock = true := by
  cases phase with
  | bound | listening => rfl
  | deaf own => rfl
  | ready | opened | locked | unlinked | refused | unlinkFailed | failed | closed | unlocked
  | stopped | dead => cases isBound

theorem descriptor_of_holds {phase : Phase} (holds : phase.holdsLock = true) :
    phase.hasDescriptor = true := by
  cases phase with
  | locked | unlinked | bound | listening | unlinkFailed | closed => rfl
  | deaf own => rfl
  | ready | opened | refused | failed | unlocked | stopped | dead => cases holds

theorem no_lock_before_start {phase : Phase} (turn : phase.mayStart = true) :
    ¬phase.holdsLock = true := by
  cases phase with
  | ready | failed => exact Bool.false_ne_true
  | opened | locked | unlinked | bound | listening | deaf | refused | unlinkFailed | closed
  | unlocked | stopped | dead => cases turn

theorem holds_of_started {phase : Phase} (started : phase.isStarted = true) :
    phase.holdsLock = true := by
  cases phase with
  | listening => rfl
  | deaf own => rfl
  | ready | opened | locked | unlinked | bound | refused | unlinkFailed | failed | closed
  | unlocked | stopped | dead => cases started

/-- A step of one server that leaves to the others what is theirs. -/
structure Moves (servers : Openers Server Process Path) (server : Server)
    (system after : System Server Process Path) : Prop where
  phases : ∀ other, other ≠ server → after.phase other = system.phase other
  numbers : ∀ other, other ≠ server → after.socketLockFd other = system.socketLockFd other
  descriptors : ∀ other, other ≠ server → ∀ number,
    system.locks.descriptors (servers.process other) number = some other →
      after.locks.descriptors (servers.process other) number = some other
  elsewhere : ∀ path, path ≠ servers.file server →
    after.locks.lockedBy path = system.locks.lockedBy path
  locks : ∀ other, other ≠ server → (after.locks.lockedBy (servers.file server) = some other ↔
    system.locks.lockedBy (servers.file server) = some other)
  files : ∀ other, other ≠ server → (system.phase other).isBound = true →
    after.boundTo (servers.file other) = system.boundTo (servers.file other)

structure Owns (servers : Openers Server Process Path) (server : Server)
    (after : System Server Process Path) : Prop where
  descriptor : (after.phase server).hasDescriptor = true →
    ∃ number, after.socketLockFd server = some number ∧
      after.locks.descriptors (servers.process server) number = some server
  lock : after.locks.lockedBy (servers.file server) = some server ↔
    (after.phase server).holdsLock = true
  bound : (after.phase server).isBound = true → after.boundTo (servers.file server) = some server

theorem sound_move {server : Server} (sound : Sound servers system)
    (moves : Moves servers server system after) (owns : Owns servers server after) :
    Sound servers after where
  descriptor := by
    intro other has
    by_cases same : other = server
    · subst same
      exact owns.descriptor has
    · rw [moves.phases other same] at has
      obtain ⟨number, isNumber, found⟩ := sound.descriptor other has
      exact ⟨number, (moves.numbers other same).trans isNumber,
        moves.descriptors other same number found⟩
  lock := by
    intro path other
    by_cases same : other = server
    · subst same
      by_cases own : path = servers.file other
      · subst own
        rw [owns.lock, and_iff_right rfl]
      · rw [moves.elsewhere path own, sound.lock]
        exact iff_of_false (fun both => own both.1) (fun both => own both.1)
    · rw [moves.phases other same, ← sound.lock]
      by_cases own : path = servers.file server
      · subst own
        exact moves.locks other same
      · rw [moves.elsewhere path own]
  bound := by
    intro other isBound
    by_cases same : other = server
    · subst same
      exact owns.bound isBound
    · rw [moves.phases other same] at isBound
      rw [moves.files other same isBound]
      exact sound.bound other isBound

theorem moves_trans {server : Server} {middle : System Server Process Path}
    (first : Moves servers server system middle) (second : Moves servers server middle after) :
    Moves servers server system after where
  phases other foreign := (second.phases other foreign).trans (first.phases other foreign)
  numbers other foreign := (second.numbers other foreign).trans (first.numbers other foreign)
  descriptors other foreign number found :=
    second.descriptors other foreign number (first.descriptors other foreign number found)
  elsewhere path foreign := (second.elsewhere path foreign).trans (first.elsewhere path foreign)
  locks other foreign := (second.locks other foreign).trans (first.locks other foreign)
  files other foreign isBound := by
    have still := isBound
    rw [← first.phases other foreign] at still
    exact (second.files other foreign still).trans (first.files other foreign isBound)

section Steps

variable {server : Server}

theorem moves_enter [DecidableEq Server] (phase : Phase) :
    Moves servers server system (system.enter server phase) where
  phases _ foreign := Function.update_of_ne foreign _ _
  numbers _ _ := rfl
  descriptors _ _ _ found := found
  elsewhere _ _ := rfl
  locks _ _ := Iff.rfl
  files _ _ _ := rfl

@[simp] theorem enter_phase [DecidableEq Server] (phase : Phase) :
    (system.enter server phase).phase server = phase :=
  Function.update_self _ _ _

theorem moves_set_bound [DecidableEq Path] (sound : Sound servers system)
    (holds : (system.phase server).holdsLock = true) (file : Option Server) :
    Moves servers server system (system.setBound (servers.file server) file) where
  phases _ _ := rfl
  numbers _ _ := rfl
  descriptors _ _ _ found := found
  elsewhere _ _ := rfl
  locks _ _ := Iff.rfl
  files other foreign isBound := by
    apply Function.update_of_ne
    intro same
    exact foreign (holder_unique sound (holds_of_bound isBound) holds same)

theorem moves_set_descriptor [DecidableEq Process] {number : Nat} {description : Option Server}
    (free : ∀ other, other ≠ server →
      system.locks.descriptors (servers.process server) number ≠ some other) :
    Moves servers server system { system with
      locks := system.locks.setDescriptor (servers.process server) number description } where
  phases _ _ := rfl
  numbers _ _ := rfl
  descriptors other foreign _ found := Locks.set_descriptor_other (free other foreign) found
  elsewhere _ _ := rfl
  locks _ _ := Iff.rfl
  files _ _ _ := rfl

theorem moves_set_lock [DecidableEq Path] {holder : Option Server}
    (before : ∀ other, system.locks.lockedBy (servers.file server) = some other → other = server)
    (mine : ∀ other, holder = some other → other = server) :
    Moves servers server system { system with
      locks := system.locks.setLock (servers.file server) holder } where
  phases _ _ := rfl
  numbers _ _ := rfl
  descriptors _ _ _ found := found
  elsewhere _ foreign := Function.update_of_ne foreign _ _
  locks other foreign := by
    show Function.update system.locks.lockedBy (servers.file server) holder _ = _ ↔ _
    rw [Function.update_self]
    exact iff_of_false (fun own => foreign (mine other own)) (fun own => foreign (before other own))
  files _ _ _ := rfl

theorem owns_enter [DecidableEq Server] (sound : Sound servers system) {phase : Phase}
    (descriptor : phase.hasDescriptor = true → (system.phase server).hasDescriptor = true)
    (lock : phase.holdsLock = (system.phase server).holdsLock)
    (bound : phase.isBound = true → (system.phase server).isBound = true) :
    Owns servers server (system.enter server phase) where
  descriptor := by
    rw [enter_phase]
    exact fun has => sound.descriptor server (descriptor has)
  lock := by
    rw [enter_phase, lock]
    exact (sound.lock _ server).trans (and_iff_right rfl)
  bound := by
    rw [enter_phase]
    exact fun isBound => sound.bound server (bound isBound)

theorem sound_enter [DecidableEq Server] (sound : Sound servers system) {phase : Phase}
    (descriptor : phase.hasDescriptor = true → (system.phase server).hasDescriptor = true)
    (lock : phase.holdsLock = (system.phase server).holdsLock)
    (bound : phase.isBound = true → (system.phase server).isBound = true) :
    Sound servers (system.enter server phase) :=
  sound_move sound (moves_enter phase) (owns_enter sound descriptor lock bound)

theorem sound_enter_holding [DecidableEq Server] (sound : Sound servers system)
    (holds : (system.phase server).holdsLock = true) {phase : Phase}
    (still : phase.holdsLock = true)
    (bound : phase.isBound = true → (system.phase server).isBound = true) :
    Sound servers (system.enter server phase) :=
  sound_enter sound (fun _ => descriptor_of_holds holds) (still.trans holds.symm) bound

theorem sound_open [DecidableEq Server] [DecidableEq Process] (sound : Sound servers system)
    {number : Nat} (turn : (system.phase server).mayStart = true)
    (free : system.locks.descriptors (servers.process server) number = none) :
    Sound servers (system.openLockFile servers server number) := by
  apply @sound_move _ _ _ _ _ _ server sound
  · constructor
    · exact fun _ foreign => Function.update_of_ne foreign _ _
    · exact fun _ foreign => Function.update_of_ne foreign _ _
    · intro other _ kept found
      apply Locks.set_descriptor_other _ found
      rw [free]
      exact (Option.some_ne_none other).symm
    · exact fun _ _ => rfl
    · exact fun _ _ => Iff.rfl
    · exact fun _ _ _ => rfl
  · have opened : (system.openLockFile servers server number).phase server = .opened :=
      Function.update_self _ _ _
    constructor
    · exact fun _ => ⟨number, Function.update_self _ _ _, Locks.set_descriptor_own _ _ _⟩
    · rw [opened]
      exact (sound.lock _ server).trans
        (iff_of_false (fun both => no_lock_before_start turn both.2) Bool.false_ne_true)
    · rw [opened]
      exact fun isBound => absurd isBound Bool.false_ne_true

theorem sound_set_bound [DecidableEq Server] [DecidableEq Path] (sound : Sound servers system)
    (holds : (system.phase server).holdsLock = true) {file : Option Server} {phase : Phase}
    (still : phase.holdsLock = true) (bound : phase.isBound = true → file = some server) :
    Sound servers ((system.setBound (servers.file server) file).enter server phase) := by
  apply sound_move sound (moves_trans (moves_set_bound sound holds file) (moves_enter phase))
  constructor
  · exact fun _ => sound.descriptor server (descriptor_of_holds holds)
  · rw [enter_phase]
    exact (sound.lock _ server).trans
      (iff_of_true ⟨rfl, holds⟩ still)
  · rw [enter_phase]
    intro isBound
    exact (Function.update_self _ _ _).trans (bound isBound)

theorem sound_flock [DecidableEq Server] [DecidableEq Path] (sound : Sound servers system)
    (turn : system.phase server = .opened) : Sound servers (system.flock servers server) := by
  have noLock : ¬(system.phase server).holdsLock = true := by
    rw [turn]
    exact Bool.false_ne_true
  obtain ⟨number, isNumber, found⟩ := sound.descriptor server (by rw [turn]; rfl)
  unfold System.flock
  rw [isNumber, Option.bind_some]
  cases held : system.locks.lockedBy (servers.file server) with
  | none =>
      rw [Locks.lock_own found held]
      apply sound_move sound (moves_trans (moves_enter .locked) (moves_set_lock ?_ ?_))
      · constructor
        · exact fun _ => ⟨number, isNumber, found⟩
        · exact iff_of_true (Function.update_self _ _ _) (congrArg Phase.holdsLock (enter_phase _))
        · intro isBound
          have locked : (system.enter server .locked).phase server = .locked := enter_phase _
          exact absurd ((congrArg Phase.isBound locked).symm.trans isBound) Bool.false_ne_true
      · intro other own
        exact absurd (held.symm.trans own) (Option.some_ne_none other).symm
      · intro other own
        exact (Option.some.inj own).symm
  | some holder =>
      have foreign : holder ≠ server := by
        intro same
        subst same
        exact noLock ((sound.lock _ holder).mp held).2
      rw [Locks.lock_refused found held foreign]
      apply sound_enter sound
      · rw [turn]
        exact fun _ => rfl
      · rw [turn]
        rfl
      · exact fun isBound => absurd isBound Bool.false_ne_true

theorem moves_unlock [DecidableEq Server] [DecidableEq Path] {number : Nat}
    (found : system.locks.descriptors (servers.process server) number = some server) :
    Moves servers server system { system with
        locks := system.locks.unlock servers (servers.process server) number } ∧
      (system.locks.unlock servers (servers.process server) number).lockedBy (servers.file server) ≠
        some server := by
  by_cases held : system.locks.lockedBy (servers.file server) = some server
  · rw [Locks.unlock_own found held]
    constructor
    · apply moves_set_lock
      · intro other own
        exact Option.some.inj (own.symm.trans held)
      · exact fun _ own => absurd own.symm (Option.some_ne_none _)
    · have given : (system.locks.setLock (servers.file server) none).lockedBy
          (servers.file server) = none := Function.update_self _ _ _
      rw [given]
      exact (Option.some_ne_none server).symm
  · rw [Locks.unlock_foreign found held]
    exact ⟨⟨fun _ _ => rfl, fun _ _ => rfl, fun _ _ _ found => found, fun _ _ => rfl,
      fun _ _ => Iff.rfl, fun _ _ _ => rfl⟩, held⟩

theorem sound_unlock [DecidableEq Server] [DecidableEq Path] (sound : Sound servers system)
    (turn : system.phase server = .closed) :
    Sound servers
      ((system.onLockFd servers server (Locks.unlock servers)).enter server .unlocked) := by
  obtain ⟨number, isNumber, found⟩ := sound.descriptor server (by rw [turn]; rfl)
  obtain ⟨moves, given⟩ := moves_unlock found
  unfold System.onLockFd
  rw [isNumber]
  apply sound_move sound (moves_trans moves (moves_enter .unlocked))
  constructor
  · intro _
    refine ⟨number, isNumber, ?_⟩
    show (system.locks.unlock servers _ number).descriptors _ number = _
    rw [Locks.unlock_descriptors]
    exact found
  · rw [enter_phase]
    exact iff_of_false given Bool.false_ne_true
  · rw [enter_phase]
    exact fun isBound => absurd isBound Bool.false_ne_true

theorem sound_close [DecidableEq Server] [DecidableEq Process] [DecidableEq Path]
    (sound : Sound servers system) (has : (system.phase server).hasDescriptor = true)
    {phase : Phase} (without : phase.hasDescriptor = false) :
    Sound servers ((system.onLockFd servers server (Locks.close servers)).enter server phase) := by
  have noLock : ¬phase.holdsLock = true := by
    intro holds
    rw [descriptor_of_holds holds] at without
    cases without
  obtain ⟨number, isNumber, found⟩ := sound.descriptor server has
  obtain ⟨moves, given⟩ := moves_unlock found
  have closes := @moves_set_descriptor _ _ _ servers { system with
    locks := system.locks.unlock servers (servers.process server) number } server _ number none (by
      intro other foreign own
      rw [show _ = some server from (congrFun (congrFun (Locks.unlock_descriptors _ _) _) _).trans
        found] at own
      exact foreign (Option.some.inj own).symm)
  unfold System.onLockFd
  rw [isNumber]
  apply sound_move sound (moves_trans (moves_trans moves closes) (moves_enter phase))
  constructor
  · rw [enter_phase, without]
    exact fun has => absurd has Bool.false_ne_true
  · rw [enter_phase]
    exact iff_of_false given noLock
  · rw [enter_phase]
    exact fun isBound => absurd (holds_of_bound isBound) noLock

theorem sound_exit [DecidableEq Process] (sound : Sound servers system) (process : Process) :
    Sound servers (system.exit servers process) := by
  have phases : ∀ other, (system.exit servers process).phase other =
      if servers.process other = process then .dead else system.phase other := fun _ => rfl
  constructor
  · intro other has
    rw [phases] at has
    split at has
    · cases has
    · next alive =>
      obtain ⟨number, isNumber, found⟩ := sound.descriptor other has
      exact ⟨number, isNumber, Locks.exit_descriptor alive found⟩
  · intro path other
    rw [phases]
    refine Locks.exit_locked_iff.trans ?_
    rw [sound.lock]
    split
    · next gone =>
      exact iff_of_false (fun both => both.2 gone) (fun both => Bool.false_ne_true both.2)
    · next alive => exact and_iff_left alive
  · intro other isBound
    rw [phases] at isBound
    split at isBound
    · cases isBound
    · exact sound.bound other isBound

/-- `socket_handle_->close()` of a server that was started, and so holds the lock. -/
theorem sound_close_handle [DecidableEq Server] [DecidableEq Path] (sound : Sound servers system)
    (started : (system.phase server).isStarted = true) :
    Sound servers (system.closeHandle servers server) := by
  have holds : (system.phase server).holdsLock = true := holds_of_started started
  unfold System.closeHandle
  split
  · exact sound_set_bound sound holds rfl (fun isBound => absurd isBound Bool.false_ne_true)
  · exact sound_enter_holding sound holds rfl
      (fun isBound => absurd isBound Bool.false_ne_true)

theorem sound_open_fails [DecidableEq Server] (sound : Sound servers system)
    (turn : (system.phase server).mayStart = true) :
    Sound servers (system.openFails server) := by
  have failed : (system.openFails server).phase server = .failed := Function.update_self _ _ _
  apply @sound_move _ _ _ _ _ _ server sound
  · constructor
    · exact fun _ foreign => Function.update_of_ne foreign _ _
    · exact fun _ foreign => Function.update_of_ne foreign _ _
    · exact fun _ _ _ found => found
    · exact fun _ _ => rfl
    · exact fun _ _ => Iff.rfl
    · exact fun _ _ _ => rfl
  · constructor
    · rw [failed]
      exact fun has => absurd has Bool.false_ne_true
    · rw [failed]
      exact (sound.lock _ server).trans
        (iff_of_false (fun both => no_lock_before_start turn both.2) Bool.false_ne_true)
    · rw [failed]
      exact fun isBound => absurd isBound Bool.false_ne_true

theorem sound_bind [DecidableEq Server] [DecidableEq Path] (sound : Sound servers system)
    (turn : system.phase server = .unlinked) (fails : Bool) :
    Sound servers (system.bind servers server fails) := by
  have holds : (system.phase server).holdsLock = true := by
    rw [turn]
    rfl
  unfold System.bind
  split
  · exact sound_enter_holding sound holds rfl
      (fun isBound => absurd isBound Bool.false_ne_true)
  · exact sound_set_bound sound holds rfl (fun _ => rfl)

theorem sound_unlink_sync [DecidableEq Server] [DecidableEq Path] (sound : Sound servers system)
    (turn : system.phase server = .locked) (fails : Bool) :
    Sound servers (if fails then system.enter server .unlinkFailed
      else (system.setBound (servers.file server) none).enter server .unlinked) := by
  have holds : (system.phase server).holdsLock = true := by
    rw [turn]
    rfl
  split
  · exact sound_enter_holding sound holds rfl
      (fun isBound => absurd isBound Bool.false_ne_true)
  · exact sound_set_bound sound holds rfl (fun isBound => absurd isBound Bool.false_ne_true)

theorem sound_listen [DecidableEq Server] (sound : Sound servers system)
    (turn : system.phase server = .bound) (fails : Bool) :
    Sound servers (system.enter server (if fails then .deaf true else .listening)) := by
  have holds : (system.phase server).holdsLock = true := by
    rw [turn]
    rfl
  apply sound_enter_holding sound holds
  · cases fails <;> rfl
  · intro _
    rw [turn]
    rfl

end Steps

theorem sound_initial (socketLockFd : Server → Option Nat) :
    Sound servers ({ socketLockFd } : System Server Process Path) where
  descriptor _ has := absurd has Bool.false_ne_true
  lock _ _ := iff_of_false (Option.some_ne_none _).symm (fun both => Bool.false_ne_true both.2)
  bound _ isBound := absurd isBound Bool.false_ne_true

variable [DecidableEq Server] [DecidableEq Process] [DecidableEq Path]

/-- A call that is made leaves the system sound, and one out of turn changes nothing. -/
theorem sound_step (action : Action Server Process) (sound : Sound servers system)
    (harmless : Harmless system action) : Sound servers (step servers system action).1 := by
  cases action with
  | openLockFile server number =>
      show Sound servers (if _ then _ else _)
      split
      · next turn => exact sound_open sound turn.1 turn.2
      · exact sound
  | openFails server =>
      show Sound servers (if _ then _ else _)
      split
      · next turn => exact sound_open_fails sound turn
      · exact sound
  | flock server =>
      show Sound servers (if _ then _ else _)
      split
      · next turn => exact sound_flock sound turn
      · exact sound
  | unlinkSync server fails =>
      show Sound servers (if _ then _ else _)
      by_cases turn : system.phase server = .locked
      · rw [if_pos turn]
        exact sound_unlink_sync sound turn fails
      · rw [if_neg turn]
        exact sound
  | bind server fails =>
      show Sound servers (if _ then _ else _)
      split
      · next turn => exact sound_bind sound turn fails
      · exact sound
  | listen server fails =>
      show Sound servers (if _ then _ else _)
      by_cases turn : system.phase server = .bound
      · rw [if_pos turn]
        exact sound_listen sound turn fails
      · rw [if_neg turn]
        exact sound
  | closeRefused server =>
      show Sound servers (if _ then _ else _)
      split
      · next turn =>
        apply sound_close sound _ rfl
        obtain refused | unlinkFailed := turn
        · rw [refused]
          rfl
        · rw [unlinkFailed]
          rfl
      · exact sound
  | closeHandle server =>
      show Sound servers (if _ then _ else _)
      split
      · exact sound_close_handle sound harmless
      · exact sound
  | unlock server =>
      show Sound servers (if _ then _ else _)
      split
      · next turn => exact sound_unlock sound turn
      · exact sound
  | closeLockFile server =>
      show Sound servers (if _ then _ else _)
      split
      · next turn =>
        apply sound_close sound _ rfl
        rw [turn]
        rfl
      · exact sound
  | exit process => exact sound_exit sound process

theorem sound_run (socketLockFd : Server → Option Nat) {actions : List (Action Server Process)}
    (harmless : StepsMeet (step servers) Harmless ({ socketLockFd } : System Server Process Path)
      actions) : Sound servers (run (step servers) { socketLockFd } actions).1 :=
  run_invariant (step servers) (fun _ action sound => sound_step action sound)
    (sound_initial socketLockFd) harmless

/-- However the calls of the servers are interleaved, and whichever processes end: of the servers
of a socket path one alone holds the lock and may remove the file at the path, and where one is
listening the file is its own. -/
theorem one_server_owns_a_path (socketLockFd : Server → Option Nat)
    {actions : List (Action Server Process)}
    (harmless : StepsMeet (step servers) Harmless ({ socketLockFd } : System Server Process Path)
      actions) :
    let reached := (run (step servers) { socketLockFd } actions).1
    (∀ first second, (reached.phase first).holdsLock = true →
      (reached.phase second).holdsLock = true → servers.file first = servers.file second →
        first = second) ∧
    ∀ server, reached.phase server = .listening →
      reached.boundTo (servers.file server) = some server ∧
      ∀ other, servers.file other = servers.file server → reached.phase other = .listening →
        other = server := by
  intro reached
  have sound : Sound servers reached := sound_run socketLockFd harmless
  refine ⟨fun first second inFirst inSecond same => holder_unique sound inFirst inSecond same, ?_⟩
  intro server listening
  constructor
  · exact sound.bound server (by rw [listening]; rfl)
  · intro other same alsoListening
    apply holder_unique sound _ _ same
    · rw [alsoListening]
      rfl
    · rw [listening]
      rfl

def twoServers : Openers Bool Bool Unit where
  process := id
  file _ := ()

/-- The first of two servers is stopped while the second tries to start, and the second starts
again. -/
def handover : List (Action Bool Bool) :=
  [.openLockFile false 3, .openLockFile true 3, .flock false, .flock true,
    .unlinkSync false false, .bind false false, .listen false false, .closeHandle false,
    .closeRefused true, .unlock false, .openLockFile true 3, .flock true,
    .closeLockFile false, .unlinkSync true false, .bind true false, .listen true false]

theorem second_server_owns_the_path :
    (run (step twoServers) { socketLockFd := fun _ => none } handover).1.boundTo () = some true ∧
      (run (step twoServers) { socketLockFd := fun _ => none } handover).1.phase false ≠
        .listening := by
  have harmless : StepsMeet (step twoServers) Harmless { socketLockFd := fun _ => none }
      handover := by decide +kernel
  have listening : (run (step twoServers) { socketLockFd := fun _ => none } handover).1.phase
      true = .listening := by decide +kernel
  obtain ⟨bound, alone⟩ := (one_server_owns_a_path (fun _ => none) harmless).2 true listening
  exact ⟨bound, fun also => Bool.false_ne_true (alone false rfl also)⟩

-- A server is its process and its path. The first server of the process `false` is refused, and
-- when it is stopped its `socket_lock_fd_` is the descriptor of the second, which loses its lock.
example :
    let servers : Openers (Bool × Bool) Bool Bool := ⟨Prod.fst, Prod.snd⟩
    let starts (server : Bool × Bool) (number : Nat) : List (Action (Bool × Bool) Bool) :=
      [.openLockFile server number, .flock server, .unlinkSync server false, .bind server false,
        .listen server false, .closeRefused server]
    let reached := (run (step servers) { socketLockFd := fun _ => none }
      (starts (true, false) 3 ++ starts (false, false) 3 ++ starts (false, true) 3 ++
        [.closeHandle (false, false), .unlock (false, false)] ++ starts (true, true) 4)).1
    reached.phase (false, true) = .listening ∧ reached.phase (true, true) = .listening := by
  decide +kernel

end StreamDataProcessor.Server.UnixSocketServer
