import StreamDataProcessor.Server.SocketOwnership

/-!
# Starting a server

The calls of one `start` with no other call between them, after any run. Where none of them
fails of itself, the lock of the path decides what comes of them.
-/

namespace StreamDataProcessor.Server.UnixSocketServer

open Foundation.Machine Foundation.AdvisoryLocks

set_option autoImplicit false

variable {Server Process Path : Type*} {servers : Openers Server Process Path}
  {system : System Server Process Path} {server : Server} {number : Nat}

def start (server : Server) (number : Nat) : List (Action Server Process) :=
  [.openLockFile server number, .flock server, .unlinkSync server false, .bind server false,
    .listen server false, .closeRefused server]

/-- Nothing has changed but the phase and the descriptor of a server, and the lock and the
socket file of its path. -/
structure LeavesOthers (servers : Openers Server Process Path) (server : Server) (number : Nat)
    (before after : System Server Process Path) : Prop where
  phase : ∀ other, other ≠ server → after.phase other = before.phase other
  socketLockFd : ∀ other, other ≠ server → after.socketLockFd other = before.socketLockFd other
  descriptors : ∀ process own, ¬(process = servers.process server ∧ own = number) →
    after.locks.descriptors process own = before.locks.descriptors process own
  locks : ∀ path, path ≠ servers.file server →
    after.locks.lockedBy path = before.locks.lockedBy path
  files : ∀ path, path ≠ servers.file server → after.boundTo path = before.boundTo path

theorem LeavesOthers.trans {first second third : System Server Process Path}
    (earlier : LeavesOthers servers server number first second)
    (later : LeavesOthers servers server number second third) :
    LeavesOthers servers server number first third where
  phase other foreign := (later.phase other foreign).trans (earlier.phase other foreign)
  socketLockFd other foreign :=
    (later.socketLockFd other foreign).trans (earlier.socketLockFd other foreign)
  descriptors process own foreign :=
    (later.descriptors process own foreign).trans (earlier.descriptors process own foreign)
  locks path foreign := (later.locks path foreign).trans (earlier.locks path foreign)
  files path foreign := (later.files path foreign).trans (earlier.files path foreign)

/-- What the two outcomes of a `start` say of the other servers of its path. -/
theorem listens_iff_of_outcome {ended : System Server Process Path} (sound : Sound servers system)
    (outcome : (system.locks.lockedBy (servers.file server) = none ∧
        ended.phase server = .listening) ∨
      (system.locks.lockedBy (servers.file server) ≠ none ∧ ended.phase server = .failed ∧
        ended.locks = system.locks ∧ ended.boundTo = system.boundTo)) :
    (ended.phase server = .listening ↔
      ∀ other, servers.file other = servers.file server →
        (system.phase other).holdsLock = false) ∧
    (ended.phase server ≠ .listening → ended.phase server = .failed ∧
      ended.locks = system.locks ∧ ended.boundTo = system.boundTo) := by
  obtain ⟨noLock, listening⟩ | ⟨held, failed, same⟩ := outcome
  · constructor
    · exact iff_of_true listening ((path_free_iff sound _).mp noLock)
    · exact fun deaf => absurd listening deaf
  · have notListening : ended.phase server ≠ .listening := by
      intro listening
      cases listening.symm.trans failed
    constructor
    · exact iff_of_false notListening (fun none => held ((path_free_iff sound _).mpr none))
    · exact fun _ => ⟨failed, same⟩

section Others

theorem enter_leaves [DecidableEq Server] (phase : Phase) :
    LeavesOthers servers server number system (system.enter server phase) where
  phase _ foreign := Function.update_of_ne foreign _ _
  socketLockFd _ _ := rfl
  descriptors _ _ _ := rfl
  locks _ _ := rfl
  files _ _ := rfl

theorem set_bound_leaves [DecidableEq Path] (holder : Option Server) :
    LeavesOthers servers server number system
      (system.setBound (servers.file server) holder) where
  phase _ _ := rfl
  socketLockFd _ _ := rfl
  descriptors _ _ _ := rfl
  locks _ _ := rfl
  files _ foreign := Function.update_of_ne foreign _ _

theorem set_lock_leaves [DecidableEq Path] (holder : Option Server) :
    LeavesOthers servers server number system
      { system with locks := system.locks.setLock (servers.file server) holder } where
  phase _ _ := rfl
  socketLockFd _ _ := rfl
  descriptors _ _ _ := rfl
  locks _ foreign := Function.update_of_ne foreign _ _
  files _ _ := rfl

theorem open_lock_file_leaves [DecidableEq Server] [DecidableEq Process] :
    LeavesOthers servers server number system (system.openLockFile servers server number) where
  phase _ foreign := Function.update_of_ne foreign _ _
  socketLockFd _ foreign := Function.update_of_ne foreign _ _
  descriptors process own foreign := by
    have kept : Locks.descriptors (system.openLockFile servers server number).locks =
        Function.update system.locks.descriptors (servers.process server)
          (Function.update (system.locks.descriptors (servers.process server)) number
            (some server)) := rfl
    rw [kept]
    by_cases same : process = servers.process server
    · subst same
      rw [Function.update_self, Function.update_of_ne fun own => foreign ⟨rfl, own⟩]
    · rw [Function.update_of_ne same]
  locks _ _ := rfl
  files _ _ := rfl

end Others

variable [DecidableEq Server] [DecidableEq Process] [DecidableEq Path]

section Calls

theorem open_lock_file_in_turn (turn : (system.phase server).mayStart = true)
    (free : system.locks.descriptors (servers.process server) number = none) :
    (step servers system (.openLockFile server number)).1 =
      system.openLockFile servers server number :=
  if_pos ⟨turn, free⟩

theorem flock_in_turn (turn : system.phase server = .opened) :
    (step servers system (.flock server)).1 = system.flock servers server :=
  if_pos turn

theorem start_with_lock (turn : system.phase server = .locked) :
    let ended := (run (step servers) system [.unlinkSync server false, .bind server false,
      .listen server false, .closeRefused server]).1
    ended.phase server = .listening ∧ LeavesOthers servers server number system ended := by
  let unlinked := (system.setBound (servers.file server) none).enter server .unlinked
  let bound := (unlinked.setBound (servers.file server) (some server)).enter server .bound
  have unlinks : (step servers system (.unlinkSync server false)).1 = unlinked := if_pos turn
  have nothing : unlinked.boundTo (servers.file server) = none := Function.update_self _ _ _
  have binds : (step servers unlinked (.bind server false)).1 = bound := by
    have inTurn : unlinked.phase server = .unlinked := enter_phase _
    refine (if_pos inTurn).trans ?_
    rw [System.bind, nothing]
    rfl
  have listens : (step servers bound (.listen server false)).1 = bound.enter server .listening :=
    if_pos (enter_phase .bound)
  have stays : (step servers (bound.enter server .listening) (.closeRefused server)).1 =
      bound.enter server .listening := by
    apply if_neg
    rw [enter_phase]
    intro stopped
    cases stopped with
    | inl refused => cases refused
    | inr unlinkFailed => cases unlinkFailed
  rw [run_cons, unlinks, run_cons, binds, run_cons, listens, run_cons, stays]
  have unlinkLeaves : LeavesOthers servers server number system unlinked :=
    (set_bound_leaves none).trans (enter_leaves _)
  have bindLeaves : LeavesOthers servers server number unlinked bound :=
    (set_bound_leaves _).trans (enter_leaves _)
  exact ⟨enter_phase _, (unlinkLeaves.trans bindLeaves).trans (enter_leaves _)⟩

theorem start_without_lock (turn : system.phase server = .refused) :
    (run (step servers) system [.unlinkSync server false, .bind server false,
      .listen server false, .closeRefused server]).1 =
      (system.onLockFd servers server (Locks.close servers)).enter server .failed := by
  have outOfTurn : ∀ phase, phase ≠ .refused → ¬system.phase server = phase := by
    intro phase foreign own
    exact foreign (own.symm.trans turn)
  have unlinks : (step servers system (.unlinkSync server false)).1 = system :=
    if_neg (outOfTurn .locked (by decide))
  have binds : (step servers system (.bind server false)).1 = system :=
    if_neg (outOfTurn .unlinked (by decide))
  have listens : (step servers system (.listen server false)).1 = system :=
    if_neg (outOfTurn .bound (by decide))
  have closes : (step servers system (.closeRefused server)).1 =
      (system.onLockFd servers server (Locks.close servers)).enter server .failed :=
    if_pos (Or.inl turn)
  rw [run_cons, unlinks, run_cons, binds, run_cons, listens, run_cons, closes]
  rfl

end Calls

/-- The state of a lock file that was opened and closed again is the one before. -/
theorem close_of_open
    (free : system.locks.descriptors (servers.process server) number = none)
    (foreign : system.locks.lockedBy (servers.file server) ≠ some server) :
    Locks.close servers (system.locks.openFile servers server number) (servers.process server)
      number = system.locks := by
  have opened : (system.locks.openFile servers server number).descriptors (servers.process server)
      number = some server := Locks.set_descriptor_own _ _ _
  rw [Locks.close, Locks.unlock_foreign opened foreign]
  exact Locks.set_descriptor_back free

theorem start_of_sound (sound : Sound servers system)
    (turn : (system.phase server).mayStart = true)
    (free : system.locks.descriptors (servers.process server) number = none) :
    let ended := (run (step servers) system (start server number)).1
    LeavesOthers servers server number system ended ∧
    ((system.locks.lockedBy (servers.file server) = none ∧ ended.phase server = .listening) ∨
      (system.locks.lockedBy (servers.file server) ≠ none ∧ ended.phase server = .failed ∧
        ended.locks = system.locks ∧ ended.boundTo = system.boundTo)) := by
  let opened := system.openLockFile servers server number
  have others : LeavesOthers servers server number system opened := open_lock_file_leaves
  have inTurn : opened.phase server = .opened := Function.update_self _ _ _
  have isNumber : opened.socketLockFd server = some number := Function.update_self _ _ _
  have found : opened.locks.descriptors (servers.process server) number = some server :=
    Locks.set_descriptor_own _ _ _
  rw [start, run_cons, open_lock_file_in_turn turn free, run_cons, flock_in_turn inTurn]
  cases held : system.locks.lockedBy (servers.file server) with
  | none =>
      have locks : opened.flock servers server = { opened.enter server .locked with
          locks := opened.locks.setLock (servers.file server) (some server) } := by
        rw [System.flock, isNumber, Option.bind_some, Locks.lock_own found held]
      have locked : (opened.flock servers server).phase server = .locked := by
        rw [locks]
        exact enter_phase _
      obtain ⟨listening, kept⟩ := start_with_lock locked
      have locking : LeavesOthers servers server number opened (opened.flock servers server) := by
        rw [locks]
        exact (enter_leaves .locked).trans (set_lock_leaves (some server))
      exact ⟨(others.trans locking).trans kept, Or.inl ⟨rfl, listening⟩⟩
  | some holder =>
      have foreignHolder : holder ≠ server := by
        intro same
        subst same
        exact no_lock_before_start turn ((sound.lock _ holder).mp held).2
      have refused : opened.flock servers server = opened.enter server .refused := by
        rw [System.flock, isNumber, Option.bind_some, Locks.lock_refused found held foreignHolder]
      have isRefused : (opened.flock servers server).phase server = .refused := by
        rw [refused]
        exact enter_phase _
      have sameLocks : (opened.enter server .refused).onLockFd servers server
          (Locks.close servers) = { opened.enter server .refused with locks := system.locks } := by
        have number' : (opened.enter server .refused).socketLockFd server = some number := isNumber
        rw [System.onLockFd, number']
        dsimp only
        congr 1
        apply close_of_open free
        rw [held]
        exact fun own => foreignHolder (Option.some.inj own)
      rw [start_without_lock isRefused, refused, sameLocks]
      refine ⟨?_, Or.inr ⟨Option.some_ne_none holder, enter_phase _, rfl, rfl⟩⟩
      have refusing := others.trans (enter_leaves .refused)
      have closing : LeavesOthers servers server number system
          { opened.enter server .refused with locks := system.locks } :=
        ⟨refusing.phase, refusing.socketLockFd, fun _ _ _ => rfl, fun _ _ => rfl, refusing.files⟩
      exact closing.trans (enter_leaves .failed)

/-- After any harmless run, a `start` whose calls come one after the other listens if and only if
no server of its path has the lock. Where one has, it is left as it was, with its file and its
lock, and so are all others; the descriptors, locks and files of other paths always are. -/
theorem start_listens_iff (socketLockFd : Server → Option Nat)
    {actions : List (Action Server Process)}
    (harmless : StepsMeet (step servers) Harmless ({ socketLockFd } : System Server Process Path)
      actions)
    (turn : ((run (step servers) { socketLockFd } actions).1.phase server).mayStart = true)
    (free : (run (step servers) { socketLockFd } actions).1.locks.descriptors
      (servers.process server) number = none) :
    let reached := (run (step servers) { socketLockFd } actions).1
    let ended := (run (step servers) reached (start server number)).1
    LeavesOthers servers server number reached ended ∧
    (ended.phase server = .listening ↔
      ∀ other, servers.file other = servers.file server →
        (reached.phase other).holdsLock = false) ∧
    (ended.phase server ≠ .listening → ended.phase server = .failed ∧
      ended.locks = reached.locks ∧ ended.boundTo = reached.boundTo) := by
  have sound := sound_run socketLockFd harmless
  obtain ⟨others, outcome⟩ := start_of_sound sound turn free
  exact ⟨others, listens_iff_of_outcome sound outcome⟩

/-- The second server starts while the first is listening, and leaves it as it was. -/
theorem second_start_fails :
    let reached := (run (step twoServers) { socketLockFd := fun _ => none } (start false 3)).1
    let ended := (run (step twoServers) reached (start true 3)).1
    ended.phase true ≠ .listening ∧ ended.phase false = .listening := by
  intro reached ended
  have harmless : StepsMeet (step twoServers) Harmless { socketLockFd := fun _ => none }
      (start false 3) := by decide +kernel
  obtain ⟨others, listens, _⟩ := start_listens_iff (fun _ => none) harmless
    (show (reached.phase true).mayStart = true by decide +kernel)
    (show reached.locks.descriptors true 3 = none by decide +kernel)
  constructor
  · intro listening
    have free : (reached.phase false).holdsLock = false := listens.mp listening false rfl
    have held : (reached.phase false).holdsLock = true := by decide +kernel
    exact Bool.false_ne_true (free.symm.trans held)
  · refine (others.phase false Bool.false_ne_true).trans ?_
    decide +kernel

end StreamDataProcessor.Server.UnixSocketServer
