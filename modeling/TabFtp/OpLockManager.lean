import Mathlib.Data.List.DropRight
import TabFtp.LabelledRuns
import TabFtp.ServerPathContainment

/-!
# The operation lock manager

`OpLockManager` keeps one record per control socket, each with the vector of
locks that the socket asked for.  A lock is identified by two indices, so a
lock that is not the last of its vector is only marked as released, and
records and locks are removed from the end.  Every method runs under the
manager's mutex, hence one call is one step of the machine below.  The
outputs of a step are the sockets that are sent a `CObtainLockEvent`.
-/

namespace TabFtp

universe u

inductive LockingReason
  | unknown | list | mkdir | private1
  deriving DecidableEq

structure LockInfo where
  path : ServerPath
  reason : LockingReason
  inclusive : Bool
  waiting : Bool
  released : Bool

structure SocketLockInfo (Socket : Type u) where
  server : Server
  controlSocket : Option Socket
  locks : List LockInfo

/-- The indices an `OpLock` holds. -/
structure OpLock where
  socket : ℕ
  lock : ℕ
  deriving DecidableEq

structure OpLockManager (Socket : Type u) where
  socketLocks : List (SocketLockInfo Socket)

namespace LockInfo

def held (lock : LockInfo) : Bool :=
  !lock.waiting && !lock.released

/-- Two entries overlap when their paths are equal or one of them is
inclusive and its path is a parent of the other's. -/
def overlaps (lock other : LockInfo) : Bool :=
  lock.path.same other.path ||
  (lock.inclusive &&
    lock.path.isParentOf ServerPath.exactName other.path false) ||
  (other.inclusive &&
    other.path.isParentOf ServerPath.exactName lock.path false)

/-- The body of the inner loops of `Lock` and `ObtainWaiting`: whether an
entry of another socket keeps `request` waiting. -/
def blocks (lock request : LockInfo) : Bool :=
  if request.reason ≠ lock.reason || lock.waiting || lock.released then false
  else lock.overlaps request

theorem overlaps_comm (lock other : LockInfo) :
    lock.overlaps other = other.overlaps lock := by
  unfold overlaps
  rw [ServerPath.same_comm, Bool.or_assoc, Bool.or_assoc]
  congr 1
  exact Bool.or_comm _ _

/-- A lock blocks another one only if it is held. -/
theorem blocks_iff (lock request : LockInfo) :
    lock.blocks request = true ↔
      request.reason = lock.reason ∧ lock.held = true ∧
        lock.overlaps request = true := by
  unfold blocks held
  split_ifs with hskip
  · simp only [Bool.or_eq_true, decide_eq_true_eq] at hskip
    simp only [Bool.and_eq_true, Bool.not_eq_true',
      false_iff]
    rintro ⟨hreason, ⟨hwaiting, hreleased⟩, _⟩
    rcases hskip with (hne | hwait) | hrel
    · exact hne hreason
    · simp [hwait] at hwaiting
    · simp [hrel] at hreleased
  · simp only [Bool.or_eq_true, decide_eq_true_eq, not_or, not_not,
      Bool.not_eq_true] at hskip
    obtain ⟨⟨hreason, hwaiting⟩, hreleased⟩ := hskip
    simp [hreason, hwaiting, hreleased]

end LockInfo

namespace OpLockManager

variable {Socket : Type u} [DecidableEq Socket]

def getOrCreate
    (manager : OpLockManager Socket) (socket : Socket)
    (currentServer : Server) :
    OpLockManager Socket × ℕ :=
  match manager.socketLocks.findIdx?
      (fun sli => sli.controlSocket == some socket) with
  | some index => (manager, index)
  | none =>
      ({ socketLocks := manager.socketLocks ++
          [{ server := currentServer
             controlSocket := some socket
             locks := [] }] },
        manager.socketLocks.length)

/-- The loops of `Lock` that decide whether the new entry has to wait. -/
def mustWait
    (manager : OpLockManager Socket) (socket : Socket)
    (server : Server) (info : LockInfo) : Bool :=
  manager.socketLocks.any fun other =>
    !(other.controlSocket == some socket || !other.server.same server) &&
      other.locks.any fun lock => lock.blocks info

def lock
    (manager : OpLockManager Socket) (currentServer : Server)
    (socket : Socket) (reason : LockingReason)
    (path : ServerPath) (inclusive : Bool) :
    OpLockManager Socket × OpLock :=
  let found := manager.getOrCreate socket currentServer
  match found.1.socketLocks[found.2]? with
  -- the index of `get_or_create` is in range, see `getOrCreate_spec`
  | none => (found.1, ⟨found.2, 0⟩)
  | some sli =>
      let request : LockInfo :=
        { path := path
          reason := reason
          inclusive := inclusive
          waiting := false
          released := false }
      let info : LockInfo :=
        { request with
          waiting := found.1.mustWait socket sli.server request }
      ({ socketLocks := found.1.socketLocks.set found.2
          { sli with locks := sli.locks ++ [info] } },
        ⟨found.2, sli.locks.length⟩)

/-- The control sockets that `Wakeup` sends an event. -/
def wakeup (manager : OpLockManager Socket) : List Socket :=
  manager.socketLocks.filterMap fun sli =>
    if sli.locks.any (·.waiting) then sli.controlSocket else none

def removeLast
    (manager : OpLockManager Socket) (index : ℕ)
    (sli : SocketLockInfo Socket) :
    OpLockManager Socket :=
  let locks := sli.locks.dropLast.rdropWhile (·.released)
  if locks.isEmpty then
    if index + 1 = manager.socketLocks.length then
      { socketLocks := manager.socketLocks.dropLast.rdropWhile
          (·.controlSocket.isNone) }
    else
      { socketLocks := manager.socketLocks.set index
          { sli with locks := locks, controlSocket := none } }
  else
    { socketLocks := manager.socketLocks.set index
        { sli with locks := locks } }

/-- `Unlock`; the two assertions make indices out of range a refusal. -/
def unlock
    (manager : OpLockManager Socket) (handle : OpLock) :
    Option (OpLockManager Socket × List Socket) :=
  match manager.socketLocks[handle.socket]? with
  | none => none
  | some sli =>
      match sli.locks[handle.lock]? with
      | none => none
      | some lock =>
          let following :=
            if handle.lock + 1 = sli.locks.length then
              manager.removeLast handle.socket sli
            else
              { socketLocks := manager.socketLocks.set handle.socket
                  { sli with
                    locks := sli.locks.set handle.lock
                      { lock with waiting := false, released := true } } }
          some (following, if lock.waiting then [] else following.wakeup)

/-- `ObtainWaiting(sli, lock)`: the second loop over the other records,
which does not look at their servers. -/
def obtain
    (others : List (SocketLockInfo Socket)) (lock : LockInfo) : LockInfo :=
  if lock.waiting &&
      !others.any (fun other => other.locks.any (·.blocks lock)) then
    { lock with waiting := false }
  else lock

/-- The loop over the records in `ObtainWaiting(socket)`.  The entries of the
record at hand are not compared with each other, so its vector is updated at
once; `before` are the records the loop has already been through. -/
def obtainIn
    (socket : Socket) (before : List (SocketLockInfo Socket)) :
    List (SocketLockInfo Socket) → List (SocketLockInfo Socket)
  | [] => before
  | sli :: rest =>
      if sli.controlSocket = some socket then
        obtainIn socket
          (before ++ [{ sli with
            locks := sli.locks.map (obtain (before ++ rest)) }])
          rest
      else obtainIn socket (before ++ [sli]) rest

def obtainWaiting
    (manager : OpLockManager Socket) (socket : Socket) :
    OpLockManager Socket :=
  { socketLocks := obtainIn socket [] manager.socketLocks }

end OpLockManager

/-- The manager together with the server that each control socket is
connected to. -/
structure OpLockState (Socket : Type u) where
  manager : OpLockManager Socket
  currentServer : Socket → Server

inductive OpLockInput (Socket : Type u)
  | lock (socket : Socket) (reason : LockingReason)
      (path : ServerPath) (inclusive : Bool)
  | unlock (handle : OpLock)
  | obtainWaiting (socket : Socket)
  | serverChanges (socket : Socket) (server : Server)

variable {Socket : Type u} [DecidableEq Socket]

def opLockStep (state : OpLockState Socket) :
    OpLockInput Socket → Option (OpLockState Socket × List Socket)
  | .lock socket reason path inclusive =>
      some ({ state with
        manager := (state.manager.lock (state.currentServer socket)
          socket reason path inclusive).1 }, [])
  | .unlock handle =>
      (state.manager.unlock handle).map fun result =>
        ({ state with manager := result.1 }, result.2)
  | .obtainWaiting socket =>
      some ({ state with manager := state.manager.obtainWaiting socket }, [])
  | .serverChanges socket server =>
      some ({ state with
        currentServer := Function.update state.currentServer socket server },
        [])

def opLockMachine (Socket : Type u) [DecidableEq Socket] :
    LabelledRuns.Machine (OpLockState Socket) (OpLockInput Socket) Socket where
  initial state := state.manager.socketLocks = []
  step := opLockStep

end TabFtp
