import StreamDataProcessor.Foundation.AdvisoryLocks
import StreamDataProcessor.Foundation.Machine

/-!
# Servers on UNIX sockets

`UnixSocketServer::start` and `stop`, one system call a step, by servers in any processes. Each
socket path has a lock file next to it, which is never removed. Closing the handle of a socket
that was bound removes the file at its path, whosever it is by then. Connections are left out.
-/

namespace StreamDataProcessor.Server.UnixSocketServer

open Foundation.Machine Foundation.AdvisoryLocks

set_option autoImplicit false

/-- Where a server is in `start` or `stop`. A server is deaf when `start` has come to its end,
but binding or listening has failed. -/
inductive Phase where
  | ready
  | opened
  | locked
  | unlinked
  | bound
  | listening
  | deaf (isBound : Bool)
  | refused
  | unlinkFailed
  | failed
  | closed
  | unlocked
  | stopped
  | dead
  deriving DecidableEq, Repr

namespace Phase

def holdsLock : Phase → Bool
  | .locked | .unlinked | .bound | .listening | .deaf _ | .unlinkFailed | .closed => true
  | _ => false

def hasDescriptor : Phase → Bool
  | .opened | .refused | .unlocked => true
  | phase => phase.holdsLock

def isBound : Phase → Bool
  | .bound | .listening | .deaf true => true
  | _ => false

/-- `start` has returned, and not with an error. -/
def isStarted : Phase → Bool
  | .listening | .deaf _ => true
  | _ => false

/-- No call of `start` or `stop` is under way, and `stop` was not called. -/
def mayStop : Phase → Bool
  | .ready | .failed => true
  | phase => phase.isStarted

/-- `start` was not called, or has returned with an error. -/
def mayStart : Phase → Bool
  | .ready | .failed => true
  | _ => false

end Phase

variable {Server Process Path : Type*}

/-- The servers, the lock files they have open, and the server that has bound each socket
path. Before `start` the member `socket_lock_fd_` has any value. -/
structure System (Server Process Path : Type*) where
  phase : Server → Phase := fun _ => .ready
  socketLockFd : Server → Option Nat
  locks : Locks Server Process Path := {}
  boundTo : Path → Option Server := fun _ => none

/-- The calls of `start` in their order, those of `stop`, and the end of a process. `open` gives
any number that is not in use. -/
inductive Action (Server Process : Type*) where
  | openLockFile (server : Server) (number : Nat)
  | openFails (server : Server)
  | flock (server : Server)
  | unlinkSync (server : Server) (fails : Bool)
  | bind (server : Server) (fails : Bool)
  | listen (server : Server) (fails : Bool)
  | closeRefused (server : Server)
  | closeHandle (server : Server)
  | unlock (server : Server)
  | closeLockFile (server : Server)
  | exit (process : Process)

section Step

variable [DecidableEq Server] [DecidableEq Process] [DecidableEq Path]
  (servers : Openers Server Process Path)

namespace System

def enter (system : System Server Process Path) (server : Server) (phase : Phase) :
    System Server Process Path :=
  { system with phase := Function.update system.phase server phase }

def setBound (system : System Server Process Path) (path : Path) (server : Option Server) :
    System Server Process Path :=
  { system with boundTo := Function.update system.boundTo path server }

def onLockFd (system : System Server Process Path) (server : Server)
    (call : Locks Server Process Path → Process → Nat → Locks Server Process Path) :
    System Server Process Path :=
  match system.socketLockFd server with
  | none => system
  | some number => { system with locks := call system.locks (servers.process server) number }

def openLockFile (system : System Server Process Path) (server : Server) (number : Nat) :
    System Server Process Path :=
  { system with
    phase := Function.update system.phase server .opened
    socketLockFd := Function.update system.socketLockFd server (some number)
    locks := Locks.openFile servers system.locks server number }

def openFails (system : System Server Process Path) (server : Server) :
    System Server Process Path :=
  { system with
    phase := Function.update system.phase server .failed
    socketLockFd := Function.update system.socketLockFd server none }

def flock (system : System Server Process Path) (server : Server) : System Server Process Path :=
  match (system.socketLockFd server).bind (system.locks.lock servers (servers.process server)) with
  | none => system.enter server .refused
  | some locks => { system.enter server .locked with locks }

/-- Binding fails where there is a file, and for other reasons. -/
def bind (system : System Server Process Path) (server : Server) (fails : Bool) :
    System Server Process Path :=
  if fails || (system.boundTo (servers.file server)).isSome then system.enter server (.deaf false)
  else (system.setBound (servers.file server) (some server)).enter server .bound

def closeHandle (system : System Server Process Path) (server : Server) :
    System Server Process Path :=
  if (system.phase server).isBound then
    (system.setBound (servers.file server) none).enter server .closed
  else system.enter server .closed

def exit (system : System Server Process Path) (process : Process) : System Server Process Path :=
  { system with
    phase := fun server => if servers.process server = process then .dead else system.phase server
    locks := Locks.exit servers system.locks process }

end System

/-- A call out of turn does nothing. -/
def step (system : System Server Process Path) :
    Action Server Process → System Server Process Path × Unit
  | .openLockFile server number =>
      (if (system.phase server).mayStart ∧
          system.locks.descriptors (servers.process server) number = none then
        system.openLockFile servers server number else system, ())
  | .openFails server =>
      (if (system.phase server).mayStart then system.openFails server else system, ())
  | .flock server =>
      (if system.phase server = .opened then system.flock servers server else system, ())
  | .unlinkSync server fails =>
      (if system.phase server = .locked then
        if fails then system.enter server .unlinkFailed
        else (system.setBound (servers.file server) none).enter server .unlinked
      else system, ())
  | .bind server fails =>
      (if system.phase server = .unlinked then system.bind servers server fails else system, ())
  | .listen server fails =>
      (if system.phase server = .bound then
        system.enter server (if fails then .deaf true else .listening) else system, ())
  | .closeRefused server =>
      (if system.phase server = .refused ∨ system.phase server = .unlinkFailed then
        (system.onLockFd servers server (Locks.close servers)).enter server .failed
      else system, ())
  | .closeHandle server =>
      (if (system.phase server).mayStop then system.closeHandle servers server else system, ())
  | .unlock server =>
      (if system.phase server = .closed then
        (system.onLockFd servers server (Locks.unlock servers)).enter server .unlocked
      else system, ())
  | .closeLockFile server =>
      (if system.phase server = .unlocked then
        (system.onLockFd servers server (Locks.close servers)).enter server .stopped
      else system, ())
  | .exit process => (system.exit servers process, ())

/-- No server is stopped whose start has failed or was not made: its `socket_lock_fd_` may be
the descriptor of another server by now. -/
def Harmless (system : System Server Process Path) : Action Server Process → Prop
  | .closeHandle server => (system.phase server).isStarted = true
  | _ => True

instance (system : System Server Process Path) (action : Action Server Process) :
    Decidable (Harmless system action) :=
  match action with
  | .closeHandle server => inferInstanceAs (Decidable ((system.phase server).isStarted = true))
  | .openLockFile _ _ | .openFails _ | .flock _ | .unlinkSync _ _ | .bind _ _ | .listen _ _
  | .closeRefused _ | .unlock _ | .closeLockFile _ | .exit _ => .isTrue trivial

end Step

end StreamDataProcessor.Server.UnixSocketServer
