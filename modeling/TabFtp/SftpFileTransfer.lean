import TabFtp.LabelledRuns
import Mathlib.Tactic

/-!
# Buffers for fzsftp

The file of an SFTP transfer is read and written by the engine, and `fzsftp`
only sees buffers in shared memory.  It asks for them with requests and blocks
until it has the line that answers; the engine may have to wait for the reader,
the writer or the buffer pool before it can answer.  What these three return is
part of the input of a step.
-/

namespace TabFtp

inductive AioResult
  | ok | wait | error
  deriving DecidableEq

/-- What sends a `fz::aio_buffer_event`. -/
inductive AioWaitable
  | reader | writer | bufferPool
  deriving DecidableEq

structure BufferLease where
  address : ℕ
  size : ℕ
  capacity : ℕ
  deriving DecidableEq

/-- What the calls that a step makes return, if it makes them. -/
structure AioAnswers where
  /-- `writer_factory_.size()`, if it is known -/
  fileSize : Option ℕ
  /-- `OpenWriter` or `reader_factory_->open` succeeds -/
  opened : Bool
  /-- descriptor, base address and size of the shared memory -/
  sharedMemory : ℤ × ℕ × ℕ
  /-- `reader_->get_buffer` -/
  readBuffer : AioResult × Option BufferLease
  /-- `writer_->add_buffer` -/
  addBuffer : AioResult
  /-- `buffer_pool_->get_buffer`; without a lease it will send an event -/
  poolBuffer : Option BufferLease
  /-- `writer_->finalize` -/
  finalize : AioResult

structure SftpFileTransfer where
  download : Bool
  resume : Bool
  reader : Bool
  writer : Bool
  finalizing : Bool
  baseAddress : ℕ
  buffer : Option BufferLease
  deriving DecidableEq

/-- What a handler leaves: the lines for fzsftp, the buffers given to the
writer and the objects that answered a call with "wait". -/
structure SftpHandled where
  transfer : SftpFileTransfer
  lines : List String
  written : List (Option BufferLease)
  waits : List AioWaitable

namespace SftpFileTransfer

def reply (transfer : SftpFileTransfer) (line : String)
    (written : List (Option BufferLease)) : SftpHandled :=
  ⟨transfer, [line], written, []⟩

def waitFor (transfer : SftpFileTransfer) (object : AioWaitable)
    (written : List (Option BufferLease)) : SftpHandled :=
  ⟨transfer, [], written, [object]⟩

/-- `"-%d %d\n"` for a buffer and a number of bytes. -/
def bufferLine (transfer : SftpFileTransfer) (lease : BufferLease)
    (bytes : ℕ) : String :=
  "-" ++ toString ((lease.address : ℤ) - transfer.baseAddress) ++ " " ++
    toString bytes ++ "\n"

/-- `"-%d %u %u\n"` for the shared memory and the offset. -/
def memoryLine (memory : ℤ × ℕ × ℕ) (offset : ℕ) : String :=
  "-" ++ toString memory.1 ++ " " ++ toString memory.2.2 ++ " " ++
    toString offset ++ "\n"

/-- `CSftpFileTransferOpData::OnOpenRequested`, as it is outside Windows. -/
def onOpenRequested (transfer : SftpFileTransfer) (offset : ℕ)
    (answers : AioAnswers) : SftpHandled :=
  if transfer.reader || transfer.writer then transfer.reply "-0\n" []
  else if transfer.download then
    match if transfer.resume then answers.fileSize else some 0 with
    | none => transfer.reply "-1\n" []
    | some offset =>
        if !answers.opened then transfer.reply "--\n" []
        else
          { transfer with
            writer := true
            baseAddress := answers.sharedMemory.2.1 }.reply
              (memoryLine answers.sharedMemory offset) []
  else if !answers.opened then transfer.reply "--\n" []
  else
    { transfer with
      reader := true
      baseAddress := answers.sharedMemory.2.1 }.reply
        (memoryLine answers.sharedMemory offset) []

/-- `buffer_->resize`. -/
def resized (transfer : SftpFileTransfer) (size : ℕ) : Option BufferLease :=
  transfer.buffer.map fun lease => { lease with size := size }

def onNextBufferRequested (transfer : SftpFileTransfer) (processed : ℕ)
    (answers : AioAnswers) : SftpHandled :=
  if transfer.reader then
    let transfer := { transfer with buffer := answers.readBuffer.2 }
    match answers.readBuffer.1 with
    | .wait => transfer.waitFor .reader []
    | .error => transfer.reply "--1\n" []
    | .ok =>
        match transfer.buffer with
        | none => transfer.reply "-0\n" []
        | some lease =>
            if lease.size ≠ 0 then
              transfer.reply (transfer.bufferLine lease lease.size) []
            else transfer.reply "-0\n" []
  else if transfer.writer then
    let written := [transfer.resized processed]
    let transfer := { transfer with buffer := none }
    match answers.addBuffer with
    | .wait => transfer.waitFor .writer written
    | .error => transfer.reply "--1\n" written
    | .ok =>
        match answers.poolBuffer with
        | none => transfer.waitFor .bufferPool written
        | some lease =>
            { transfer with buffer := some lease }.reply
              (transfer.bufferLine lease lease.capacity) written
  else transfer.reply "--1\n" []

/-- `CSftpFileTransferOpData::OnFinalizeRequested`; without a writer it follows
a null pointer. -/
def onFinalizeRequested (transfer : SftpFileTransfer) (lastWrite : ℕ)
    (answers : AioAnswers) : Option SftpHandled :=
  if !transfer.writer then none
  else
    let written := [transfer.resized lastWrite]
    let transfer := { transfer with finalizing := true, buffer := none }
    match answers.addBuffer with
    | .wait => some (transfer.waitFor .writer written)
    | .error => some (transfer.reply "-0\n" written)
    | .ok =>
        match answers.finalize with
        | .wait => some (transfer.waitFor .writer written)
        | .ok => some (transfer.reply "-1\n" written)
        | .error => some (transfer.reply "-0\n" written)

def onBufferAvailability (transfer : SftpFileTransfer) (object : AioWaitable)
    (answers : AioAnswers) : Option SftpHandled :=
  if object = .reader ∧ transfer.reader then
    some (transfer.onNextBufferRequested 0 answers)
  else if object = .writer ∧ transfer.writer then
    if transfer.finalizing then transfer.onFinalizeRequested 0 answers
    else some (transfer.onNextBufferRequested 0 answers)
  else some ⟨transfer, [], [], []⟩

end SftpFileTransfer

/-! ## Requests and events -/

inductive SftpIoAction
  | ioOpen (offset : ℕ)
  | ioNextbuf (processed : ℕ)
  | ioFinalize (lastWrite : ℕ)
  | available (object : AioWaitable)

/-- The transfer, how many requests and reply lines there have been, and the
objects that still have to send an event. -/
structure SftpIo where
  transfer : SftpFileTransfer
  requested : ℕ
  answered : ℕ
  waiting : List AioWaitable
  crashed : Bool
  deriving DecidableEq

namespace SftpIo

/-- The handler for an action. -/
def handle (transfer : SftpFileTransfer) (answers : AioAnswers) :
    SftpIoAction → Option SftpHandled
  | .ioOpen offset => some (transfer.onOpenRequested offset answers)
  | .ioNextbuf processed =>
      some (transfer.onNextBufferRequested processed answers)
  | .ioFinalize lastWrite => transfer.onFinalizeRequested lastWrite answers
  | .available object => transfer.onBufferAvailability object answers

/-- fzsftp blocks after a request until a line answers it, and an object sends
one event for a call that it let wait. -/
def enabled (io : SftpIo) : SftpIoAction → Bool
  | .available object => !io.crashed && io.waiting.contains object
  | _ => !io.crashed && decide (io.requested ≤ io.answered)

def accept (io : SftpIo) : SftpIoAction → SftpIo
  | .available object => { io with waiting := io.waiting.erase object }
  | _ => { io with requested := io.requested + 1 }

def finish (io : SftpIo) : Option SftpHandled → SftpIo × List String
  | none => ({ io with crashed := true }, [])
  | some handled =>
      ({ io with
          transfer := handled.transfer
          answered := io.answered + handled.lines.length
          waiting := io.waiting ++ handled.waits }, handled.lines)

def step (io : SftpIo) (input : SftpIoAction × AioAnswers) :
    Option (SftpIo × List String) :=
  if io.enabled input.1 then
    some ((io.accept input.1).finish (handle io.transfer input.2 input.1))
  else none

end SftpIo

def sftpIoMachine :
    LabelledRuns.Machine SftpIo (SftpIoAction × AioAnswers) String where
  initial io :=
    io.transfer.reader = false ∧ io.transfer.writer = false ∧
      io.transfer.finalizing = false ∧ io.transfer.buffer = none ∧
      io.requested = 0 ∧ io.answered = 0 ∧ io.waiting = [] ∧
      io.crashed = false
  step := SftpIo.step

end TabFtp
