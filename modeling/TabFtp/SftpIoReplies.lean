import TabFtp.SftpFileTransfer

/-!
# Which requests of fzsftp are answered

Between two events a request is either answered or waits for exactly one
object.  The handler for the events resumes it for the reader and for the
writer; it does not know the buffer pool.
-/

namespace TabFtp

open LabelledRuns

/-- No request has two lines, and a request without one has an event to come
whose handler can give it one. -/
def SftpIo.Matched (io : SftpIo) : Prop :=
  io.answered ≤ io.requested ∧
    (io.answered < io.requested →
      ∃ object answers following lines,
        io.step (.available object, answers) = some (following, lines) ∧
          lines ≠ [])

/-- The step keeps the requests matched. -/
def KeepsMatched
    (io : SftpIo) (input : SftpIoAction × AioAnswers) : Prop :=
  ∀ following lines, io.step input = some (following, lines) →
    following.Matched

/-- The action comes to the call of `get_buffer` of the buffer pool. -/
def SftpFileTransfer.asksPool (transfer : SftpFileTransfer)
    (answers : AioAnswers) : SftpIoAction → Bool
  | .ioNextbuf _ =>
      !transfer.reader && transfer.writer && answers.addBuffer == .ok
  | .available object =>
      object == .writer && !transfer.reader && transfer.writer &&
        !transfer.finalizing && answers.addBuffer == .ok
  | _ => false

/-- The buffer pool has a buffer when it is asked for one, and only a file
that is being written is finalized. -/
def Resumable (io : SftpIo) (input : SftpIoAction × AioAnswers) : Prop :=
  (io.transfer.asksPool input.2 input.1 = true →
    input.2.poolBuffer.isSome = true) ∧
  ((∃ lastWrite, input.1 = .ioFinalize lastWrite) →
    io.transfer.writer = true)

/-! ## The handlers -/

def SftpHandled.Settles (handled : SftpHandled) : Prop :=
  (∃ line, handled.lines = [line] ∧ handled.waits = []) ∨
  (handled.lines = [] ∧
    (handled.waits = [.reader] ∧ handled.transfer.reader = true ∨
      handled.waits = [.writer] ∧ handled.transfer.writer = true))

namespace SftpFileTransfer

variable (transfer : SftpFileTransfer) (answers : AioAnswers)

theorem reply_settles (line : String) (written : List (Option BufferLease)) :
    (transfer.reply line written).Settles :=
  Or.inl ⟨line, rfl, rfl⟩

theorem onOpenRequested_settles (offset : ℕ) :
    (transfer.onOpenRequested offset answers).Settles := by
  unfold onOpenRequested
  by_cases hopen : (transfer.reader || transfer.writer) = true
  · rw [if_pos hopen]
    exact reply_settles _ _ _
  · rw [if_neg hopen]
    by_cases hdownload : transfer.download = true
    · rw [if_pos hdownload]
      cases if transfer.resume then answers.fileSize else some 0 with
      | none => exact reply_settles _ _ _
      | some offset =>
          dsimp only
          by_cases hfile : (!answers.opened) = true
          · rw [if_pos hfile]
            exact reply_settles _ _ _
          · rw [if_neg hfile]
            exact reply_settles _ _ _
    · rw [if_neg hdownload]
      by_cases hfile : (!answers.opened) = true
      · rw [if_pos hfile]
        exact reply_settles _ _ _
      · rw [if_neg hfile]
        exact reply_settles _ _ _

theorem onNextBufferRequested_settles
    (processed : ℕ)
    (hpool :
      transfer.reader = false → transfer.writer = true →
        answers.addBuffer = .ok → answers.poolBuffer.isSome = true) :
    (transfer.onNextBufferRequested processed answers).Settles := by
  unfold onNextBufferRequested
  by_cases hreader : transfer.reader = true
  · rw [if_pos hreader]
    dsimp only
    cases answers.readBuffer.1 with
    | wait => exact Or.inr ⟨rfl, Or.inl ⟨rfl, hreader⟩⟩
    | error => exact reply_settles _ _ _
    | ok =>
        cases answers.readBuffer.2 with
        | none => exact reply_settles _ _ _
        | some lease =>
            dsimp only
            by_cases hsize : lease.size ≠ 0
            · rw [if_pos hsize]
              exact reply_settles _ _ _
            · rw [if_neg hsize]
              exact reply_settles _ _ _
  · rw [if_neg hreader]
    by_cases hwriter : transfer.writer = true
    · rw [if_pos hwriter]
      dsimp only
      cases hadd : answers.addBuffer with
      | wait => exact Or.inr ⟨rfl, Or.inr ⟨rfl, hwriter⟩⟩
      | error => exact reply_settles _ _ _
      | ok =>
          have hlease := hpool (Bool.eq_false_iff.mpr hreader) hwriter hadd
          rcases Option.isSome_iff_exists.mp hlease with ⟨lease, hlease⟩
          rw [hlease]
          exact reply_settles _ _ _
    · rw [if_neg hwriter]
      exact reply_settles _ _ _

theorem onFinalizeRequested_settles
    (lastWrite : ℕ) (hwriter : transfer.writer = true) :
    ∃ handled, transfer.onFinalizeRequested lastWrite answers = some handled ∧
      handled.Settles := by
  unfold onFinalizeRequested
  rw [hwriter, if_neg (by decide)]
  dsimp only
  cases answers.addBuffer with
  | wait => exact ⟨_, rfl, Or.inr ⟨rfl, Or.inr ⟨rfl, rfl⟩⟩⟩
  | error => exact ⟨_, rfl, reply_settles _ _ _⟩
  | ok =>
      cases answers.finalize with
      | wait => exact ⟨_, rfl, Or.inr ⟨rfl, Or.inr ⟨rfl, rfl⟩⟩⟩
      | error => exact ⟨_, rfl, reply_settles _ _ _⟩
      | ok => exact ⟨_, rfl, reply_settles _ _ _⟩

theorem onNextBufferRequested_pool
    (processed : ℕ) (hreader : transfer.reader = false)
    (hwriter : transfer.writer = true) (hadd : answers.addBuffer = .ok)
    (hpool : answers.poolBuffer = none) :
    (transfer.onNextBufferRequested processed answers).lines = [] ∧
      (transfer.onNextBufferRequested processed answers).waits =
        [.bufferPool] := by
  simp [onNextBufferRequested, hreader, hwriter, hadd, hpool, waitFor]

end SftpFileTransfer

namespace SftpIo

/-! ## Between the events -/

def Settled (io : SftpIo) : Prop :=
  io.crashed = false ∧
    (io.waiting = [] ∧ io.answered = io.requested ∨
      io.answered + 1 = io.requested ∧
        (io.waiting = [.reader] ∧ io.transfer.reader = true ∨
          io.waiting = [.writer] ∧ io.transfer.writer = true))

theorem accept_of_enabled
    {io : SftpIo} {action : SftpIoAction} (hsettled : io.Settled)
    (henabled : io.enabled action = true) :
    (io.accept action).waiting = [] ∧
      (io.accept action).answered + 1 = (io.accept action).requested ∧
      (io.accept action).crashed = false := by
  rcases hsettled with ⟨hcrashed, ⟨hwaiting, hanswered⟩ | ⟨hanswered, hwaits⟩⟩
  · cases action with
    | available object => simp [enabled, hwaiting] at henabled
    | ioOpen | ioNextbuf | ioFinalize =>
        exact ⟨hwaiting, congrArg (· + 1) hanswered, hcrashed⟩
  · cases action with
    | available object =>
        refine ⟨?_, hanswered, hcrashed⟩
        rcases hwaits with ⟨hwaiting, -⟩ | ⟨hwaiting, -⟩
        · simp only [enabled, hwaiting, hcrashed] at henabled
          have hobject : object = .reader := by simpa using henabled
          simp [accept, hwaiting, hobject]
        · simp only [enabled, hwaiting, hcrashed] at henabled
          have hobject : object = .writer := by simpa using henabled
          simp [accept, hwaiting, hobject]
    | ioOpen | ioNextbuf | ioFinalize =>
        simp only [enabled, Bool.and_eq_true, decide_eq_true_eq] at henabled
        omega

theorem available_open
    {io : SftpIo} {object : AioWaitable} (hsettled : io.Settled)
    (henabled : io.enabled (.available object) = true) :
    object = .reader ∧ io.transfer.reader = true ∨
      object = .writer ∧ io.transfer.writer = true := by
  rcases hsettled with ⟨hcrashed, ⟨hwaiting, -⟩ | ⟨-, hwaits⟩⟩
  · simp [enabled, hwaiting] at henabled
  · rcases hwaits with ⟨hwaiting, hopen⟩ | ⟨hwaiting, hopen⟩
    · simp only [enabled, hwaiting, hcrashed] at henabled
      exact Or.inl ⟨by simpa using henabled, hopen⟩
    · simp only [enabled, hwaiting, hcrashed] at henabled
      exact Or.inr ⟨by simpa using henabled, hopen⟩

theorem handle_settles
    {io : SftpIo} {action : SftpIoAction} {answers : AioAnswers}
    (hsettled : io.Settled) (henabled : io.enabled action = true)
    (hresumable : Resumable io (action, answers)) :
    ∃ handled, handle io.transfer answers action = some handled ∧
      handled.Settles := by
  rcases hresumable with ⟨hpool, hfinalize⟩
  cases action with
  | ioOpen offset =>
      exact ⟨_, rfl, io.transfer.onOpenRequested_settles answers offset⟩
  | ioNextbuf processed =>
      refine ⟨_, rfl,
        io.transfer.onNextBufferRequested_settles answers processed ?_⟩
      intro hreader hwriter hadd
      exact hpool (by
        simp [SftpFileTransfer.asksPool, hreader, hwriter, hadd])
  | ioFinalize lastWrite =>
      exact io.transfer.onFinalizeRequested_settles answers lastWrite
        (hfinalize ⟨lastWrite, rfl⟩)
  | available object =>
      simp only [handle, SftpFileTransfer.onBufferAvailability]
      rcases available_open hsettled henabled with
        ⟨rfl, hreader⟩ | ⟨rfl, hwriter⟩
      · rw [if_pos ⟨rfl, hreader⟩]
        refine ⟨_, rfl,
          io.transfer.onNextBufferRequested_settles answers 0 ?_⟩
        intro hclosed
        rw [hreader] at hclosed
        cases hclosed
      · rw [if_neg (by simp), if_pos ⟨rfl, hwriter⟩]
        by_cases hfinalizing : io.transfer.finalizing = true
        · rw [if_pos hfinalizing]
          exact io.transfer.onFinalizeRequested_settles answers 0 hwriter
        · rw [if_neg hfinalizing]
          refine ⟨_, rfl,
            io.transfer.onNextBufferRequested_settles answers 0 ?_⟩
          intro hreader hwriter hadd
          exact hpool (by
            simp [SftpFileTransfer.asksPool, hreader, hwriter, hadd,
              hfinalizing])

/-- One step that keeps no request waiting. -/
theorem step_settled
    {io following : SftpIo} {input : SftpIoAction × AioAnswers}
    {lines : List String} (hsettled : io.Settled)
    (hresumable : Resumable io input)
    (hstep : io.step input = some (following, lines)) :
    following.Settled := by
  rw [step] at hstep
  by_cases henabled : io.enabled input.1 = true
  · rw [if_pos henabled] at hstep
    rcases accept_of_enabled hsettled henabled with
      ⟨hwaiting, hcount, hcrashed⟩
    rcases handle_settles hsettled henabled hresumable with
      ⟨handled, hhandle, hsettles⟩
    rw [hhandle, finish] at hstep
    injection hstep with hpair
    injection hpair with hfollowing hlines
    subst hfollowing
    refine ⟨hcrashed, ?_⟩
    dsimp only
    rw [hwaiting, List.nil_append]
    rcases hsettles with ⟨line, hline, hwaits⟩ | ⟨hline, hwaits⟩
    · left
      refine ⟨hwaits, ?_⟩
      rw [hline]
      exact hcount
    · right
      rw [hline]
      exact ⟨hcount, hwaits⟩
  · rw [if_neg henabled] at hstep
    cases hstep

def failing : AioAnswers :=
  ⟨none, false, (0, 0, 0), (.error, none), .error, none, .error⟩

theorem failing_answers
    (transfer : SftpFileTransfer) (object : AioWaitable)
    (hopen :
      object = .reader ∧ transfer.reader = true ∨
        object = .writer ∧ transfer.writer = true) :
    ∃ handled, handle transfer failing (.available object) = some handled ∧
      handled.lines ≠ [] := by
  have hnext :
      (transfer.onNextBufferRequested 0 failing).lines ≠ [] := by
    unfold SftpFileTransfer.onNextBufferRequested
    by_cases hreader : transfer.reader = true
    · rw [if_pos hreader]
      exact List.cons_ne_nil _ _
    · rw [if_neg hreader]
      by_cases hwriter : transfer.writer = true
      · rw [if_pos hwriter]
        exact List.cons_ne_nil _ _
      · rw [if_neg hwriter]
        exact List.cons_ne_nil _ _
  simp only [handle, SftpFileTransfer.onBufferAvailability]
  rcases hopen with ⟨rfl, hreader⟩ | ⟨rfl, hwriter⟩
  · rw [if_pos ⟨rfl, hreader⟩]
    exact ⟨_, rfl, hnext⟩
  · rw [if_neg (by simp), if_pos ⟨rfl, hwriter⟩]
    by_cases hfinalizing : transfer.finalizing = true
    · rw [if_pos hfinalizing, SftpFileTransfer.onFinalizeRequested, hwriter,
        if_neg (by decide)]
      exact ⟨_, rfl, List.cons_ne_nil _ _⟩
    · rw [if_neg hfinalizing]
      exact ⟨_, rfl, hnext⟩

theorem matched_of_settled {io : SftpIo} (hsettled : io.Settled) :
    io.Matched := by
  rcases hsettled with ⟨hcrashed, ⟨-, hanswered⟩ | ⟨hanswered, hwaits⟩⟩
  · refine ⟨hanswered.le, ?_⟩
    intro hless
    omega
  · refine ⟨by omega, ?_⟩
    intro _
    have hwaited :
        ∃ object, io.enabled (.available object) = true ∧
          (object = .reader ∧ io.transfer.reader = true ∨
            object = .writer ∧ io.transfer.writer = true) := by
      rcases hwaits with ⟨hwaiting, hopen⟩ | ⟨hwaiting, hopen⟩
      · exact ⟨.reader, by simp [enabled, hwaiting, hcrashed],
          Or.inl ⟨rfl, hopen⟩⟩
      · exact ⟨.writer, by simp [enabled, hwaiting, hcrashed],
          Or.inr ⟨rfl, hopen⟩⟩
    rcases hwaited with ⟨object, henabled, hopen⟩
    rcases failing_answers io.transfer object hopen with
      ⟨handled, hhandle, hlines⟩
    have hstep :
        io.step (.available object, failing) =
          some ((io.accept (.available object)).finish (some handled)) := by
      rw [step, if_pos henabled, hhandle]
    exact ⟨object, failing, _, handled.lines, hstep, hlines⟩

/-! ## What goes wrong otherwise -/

theorem handle_stuck
    {io : SftpIo} {action : SftpIoAction} {answers : AioAnswers}
    (hresumable : ¬ Resumable io (action, answers)) :
    handle io.transfer answers action = none ∨
      ∃ handled, handle io.transfer answers action = some handled ∧
        handled.lines = [] ∧ handled.waits = [.bufferPool] := by
  unfold Resumable at hresumable
  rw [not_and_or] at hresumable
  rcases hresumable with hpool | hfinalize
  · right
    rw [Classical.not_imp] at hpool
    rcases hpool with ⟨hasks, hnone⟩
    have hlease : answers.poolBuffer = none := by simpa using hnone
    cases action with
    | ioOpen | ioFinalize => cases hasks
    | ioNextbuf processed =>
        simp only [SftpFileTransfer.asksPool, Bool.and_eq_true,
          Bool.not_eq_true', beq_iff_eq] at hasks
        rcases hasks with ⟨⟨hreader, hwriter⟩, hadd⟩
        exact ⟨_, rfl,
          io.transfer.onNextBufferRequested_pool answers processed hreader
            hwriter hadd hlease⟩
    | available object =>
        simp only [SftpFileTransfer.asksPool, Bool.and_eq_true,
          Bool.not_eq_true', beq_iff_eq] at hasks
        rcases hasks with
          ⟨⟨⟨⟨hobject, hreader⟩, hwriter⟩, hfinalizing⟩, hadd⟩
        refine ⟨_, ?_,
          io.transfer.onNextBufferRequested_pool answers 0 hreader hwriter
            hadd hlease⟩
        simp [handle, SftpFileTransfer.onBufferAvailability, hobject, hwriter,
          hfinalizing]
  · left
    rw [Classical.not_imp] at hfinalize
    rcases hfinalize with ⟨⟨lastWrite, haction⟩, hwriter⟩
    dsimp only at haction
    rw [haction]
    simp [handle, SftpFileTransfer.onFinalizeRequested, hwriter]

theorem not_matched_of_waiting
    {io : SftpIo} (hless : io.answered < io.requested)
    (hwaiting : io.crashed = true ∨ io.waiting = [.bufferPool]) :
    ¬ io.Matched := by
  intro hmatched
  rcases hmatched.2 hless with ⟨object, answers, following, lines, hstep, hne⟩
  rw [step] at hstep
  by_cases henabled : io.enabled (.available object) = true
  · rw [if_pos henabled] at hstep
    rcases hwaiting with hcrashed | hwaiting
    · simp [enabled, hcrashed] at henabled
    · simp only [enabled, hwaiting, Bool.and_eq_true] at henabled
      have hobject : object = .bufferPool := by simpa using henabled.2
      subst hobject
      have hhandle :
          handle io.transfer answers (.available .bufferPool) =
            some ⟨io.transfer, [], [], []⟩ := by
        simp [handle, SftpFileTransfer.onBufferAvailability]
      rw [hhandle, finish] at hstep
      injection hstep with hpair
      injection hpair with hfollowing hlines
      exact hne hlines.symm
  · rw [if_neg henabled] at hstep
    cases hstep

/-- A request that has to wait is lost. -/
theorem step_stuck
    {io following : SftpIo} {input : SftpIoAction × AioAnswers}
    {lines : List String} (hsettled : io.Settled)
    (hresumable : ¬ Resumable io input)
    (hstep : io.step input = some (following, lines)) :
    ¬ following.Matched := by
  rw [step] at hstep
  by_cases henabled : io.enabled input.1 = true
  · rw [if_pos henabled] at hstep
    rcases accept_of_enabled hsettled henabled with
      ⟨hwaiting, hcount, hcrashed⟩
    rcases handle_stuck hresumable with hhandle | ⟨handled, hhandle, hnone⟩
    · rw [hhandle, finish] at hstep
      injection hstep with hpair
      injection hpair with hfollowing _
      subst hfollowing
      exact not_matched_of_waiting (Nat.lt_of_succ_le hcount.le) (Or.inl rfl)
    · rw [hhandle, finish] at hstep
      injection hstep with hpair
      injection hpair with hfollowing _
      subst hfollowing
      refine not_matched_of_waiting ?_ (Or.inr ?_)
      · dsimp only
        rw [hnone.1]
        exact Nat.lt_of_succ_le hcount.le
      · dsimp only
        rw [hwaiting, hnone.2]
        rfl
  · rw [if_neg henabled] at hstep
    cases hstep

/-! ## Runs -/

theorem settled_of_initial {io : SftpIo} (hinit : sftpIoMachine.initial io) :
    io.Settled := by
  rcases hinit with
    ⟨-, -, -, -, hrequested, hanswered, hwaiting, hcrashed⟩
  exact ⟨hcrashed, Or.inl ⟨hwaiting, hanswered.trans hrequested.symm⟩⟩

theorem settled_of_reaches
    {inputs : List (SftpIoAction × AioAnswers)} {lines : List String}
    {io : SftpIo}
    (hreach : sftpIoMachine.ReachesWithin Resumable inputs lines io) :
    io.Settled :=
  hreach.stateInvariant Settled (fun _ => settled_of_initial)
    fun _ _ _ _ hsettled hresumable hstep =>
      step_settled hsettled hresumable hstep

end SftpIo

/-- The runs in which every request stays matched with one reply line are
those in which the buffer pool never lets a request wait. -/
theorem requests_matched_iff
    {inputs : List (SftpIoAction × AioAnswers)} {lines : List String}
    {io : SftpIo} :
    sftpIoMachine.ReachesWithin KeepsMatched inputs lines io ↔
      sftpIoMachine.ReachesWithin Resumable inputs lines io := by
  constructor
  · intro hreach
    induction hreach with
    | start hinit => exact .start hinit
    | next hreach hmatched hstep ih =>
        refine .next ih ?_ hstep
        by_contra hresumable
        exact SftpIo.step_stuck (SftpIo.settled_of_reaches ih) hresumable hstep
          (hmatched _ _ hstep)
  · intro hreach
    induction hreach with
    | start hinit => exact .start hinit
    | next hreach hresumable hstep ih =>
        refine .next ih ?_ hstep
        intro following lines hfollowing
        exact SftpIo.matched_of_settled
          (SftpIo.step_settled (SftpIo.settled_of_reaches hreach) hresumable
            hfollowing)

/-- A download whose second request finds the pool without a buffer.  When
the pool has one again the event is not handled, and fzsftp waits for ever. -/
theorem request_lost_for_pool :
    let answers : AioAnswers :=
      ⟨none, true, (3, 4096, 8192), (.ok, none), .ok, none, .ok⟩
    ∃ lines io,
      sftpIoMachine.Reaches
        [(.ioOpen 0, answers), (.ioNextbuf 0, answers),
          (.available .bufferPool, answers)] lines io ∧
      io.requested = 2 ∧ io.answered = 1 ∧ io.waiting = [] ∧
        ¬ io.Matched := by
  intro answers
  let transfer : SftpFileTransfer :=
    ⟨true, false, false, false, false, 0, none⟩
  have hexec :
      sftpIoMachine.exec (fun _ _ => True) ⟨transfer, 0, 0, [], false⟩
        [(.ioOpen 0, answers), (.ioNextbuf 0, answers),
          (.available .bufferPool, answers)] =
        some (⟨{ transfer with writer := true, baseAddress := 4096 }, 2, 1,
          [], false⟩, ["-3 8192 0\n"]) := by
    decide
  have hinit : sftpIoMachine.initial ⟨transfer, 0, 0, [], false⟩ :=
    ⟨rfl, rfl, rfl, rfl, rfl, rfl, rfl, rfl⟩
  refine ⟨_, _, Machine.ReachesWithin.exec (.start hinit) hexec, rfl, rfl, rfl,
    ?_⟩
  intro hmatched
  rcases hmatched.2 (by decide) with
    ⟨object, others, following, lines, hstep, -⟩
  cases hstep

end TabFtp
