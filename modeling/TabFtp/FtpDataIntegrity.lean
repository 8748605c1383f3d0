import TabFtp.FtpTransferSocket

/-!
# Nothing is lost on the data connection

What has been read from the connection is at the writer or in the buffer, and
what the reader gave has been written or is in the buffer.  The functions of
the socket keep this whatever the calls in them return, so it holds when a
transfer ends successfully.
-/

namespace TabFtp

open LabelledRuns

/-! ## Bytes of a history -/

def receivedBytes (effects : List TransferEffect) : List UInt8 :=
  effects.flatMap fun
    | .received _ bytes => bytes
    | _ => []

def handedBytes (effects : List TransferEffect) : List UInt8 :=
  effects.flatMap fun
    | .handed bytes => bytes
    | _ => []

def sentBytes (effects : List TransferEffect) : List UInt8 :=
  effects.flatMap fun
    | .sent _ bytes => bytes
    | _ => []

def fetchedBytes (effects : List TransferEffect) : List UInt8 :=
  effects.flatMap fun
    | .fetched bytes => bytes
    | _ => []

@[simp] theorem receivedBytes_append (first second : List TransferEffect) :
    receivedBytes (first ++ second) =
      receivedBytes first ++ receivedBytes second :=
  List.flatMap_append

@[simp] theorem handedBytes_append (first second : List TransferEffect) :
    handedBytes (first ++ second) = handedBytes first ++ handedBytes second :=
  List.flatMap_append

@[simp] theorem sentBytes_append (first second : List TransferEffect) :
    sentBytes (first ++ second) = sentBytes first ++ sentBytes second :=
  List.flatMap_append

@[simp] theorem fetchedBytes_append (first second : List TransferEffect) :
    fetchedBytes (first ++ second) =
      fetchedBytes first ++ fetchedBytes second :=
  List.flatMap_append

/-- `activity_block_` when the effect moved bytes of the connection. -/
def TransferEffect.payloadBlock : TransferEffect → ℕ
  | .received activityBlock _ => activityBlock
  | .discarded activityBlock _ => activityBlock
  | .sent activityBlock _ => activityBlock
  | _ => 0

def fromEnd (effects : List TransferEffect) : List TransferEffect :=
  effects.dropWhile fun effect => effect ≠ .endOfFile

theorem fromEnd_of_not_mem
    {effects : List TransferEffect} (hend : .endOfFile ∉ effects)
    (more : List TransferEffect) :
    fromEnd (effects ++ more) = fromEnd more := by
  unfold fromEnd
  rw [List.dropWhile_append_of_pos]
  intro effect hmem
  have hne : effect ≠ .endOfFile := by
    rintro rfl
    exact hend hmem
  exact decide_eq_true hne

theorem fromEnd_of_mem
    {effects : List TransferEffect} (hend : .endOfFile ∈ effects)
    (more : List TransferEffect) :
    fromEnd (effects ++ more) = fromEnd effects ++ more := by
  induction effects with
  | nil => cases hend
  | cons effect effects ih =>
      unfold fromEnd at ih ⊢
      by_cases heffect : effect = .endOfFile
      · simp [heffect]
      · have htail : .endOfFile ∈ effects := by
          rcases List.mem_cons.mp hend with hhead | htail
          · exact absurd hhead.symm heffect
          · exact htail
        rw [List.cons_append, List.dropWhile_cons_of_pos (by simpa),
          List.dropWhile_cons_of_pos (by simpa), ih htail]

/-! ## What holds between the functions -/

namespace TransferSocket

def held (socket : TransferSocket) : List UInt8 :=
  (socket.buffer.map TransferBuffer.bytes).getD []

def Balanced (effects : List TransferEffect) (mode : TransferMode)
    (held : List UInt8) : Prop :=
  (mode = .download → handedBytes effects ++ held = receivedBytes effects) ∧
    (mode = .upload → sentBytes effects ++ held = fetchedBytes effects)

def Complete (effects : List TransferEffect) (mode : TransferMode) : Prop :=
  (mode = .download →
    handedBytes effects = receivedBytes effects ∧
      .endOfFile ∈ effects ∧ .finalized .ok ∈ effects) ∧
    (mode = .upload → sentBytes effects = fetchedBytes effects)

structure Faithful (effects : List TransferEffect)
    (socket : TransferSocket) : Prop where
  ends :
    effects.count .transferEnd = if socket.endReason = .none then 0 else 1
  unblocked : ∀ effect ∈ effects, effect.payloadBlock = 0
  nothingLate : receivedBytes (fromEnd effects) = []
  balanced :
    socket.endReason = .none → Balanced effects socket.mode socket.held
  complete : socket.endReason = .successful → Complete effects socket.mode

structure Keeps (effects : List TransferEffect) (before : TransferSocket)
    (handled : SocketHandled) : Prop where
  faithful : Faithful (effects ++ handled.effects) handled.socket
  mode_eq : handled.socket.mode = before.mode
  activityBlock_eq : handled.socket.activityBlock = before.activityBlock
  active : handled.again = true → handled.socket.endReason = .none

variable {effects : List TransferEffect} {socket other : TransferSocket}

theorem Keeps.trans {first second : SocketHandled}
    (hfirst : Keeps effects socket first)
    (hsecond : Keeps (effects ++ first.effects) first.socket second) :
    Keeps effects socket (second.after first.effects) where
  faithful := by
    have hfaithful := hsecond.faithful
    rw [List.append_assoc] at hfaithful
    exact hfaithful
  mode_eq := hsecond.mode_eq.trans hfirst.mode_eq
  activityBlock_eq := hsecond.activityBlock_eq.trans hfirst.activityBlock_eq
  active := hsecond.active

theorem Keeps.congr {handled : SocketHandled}
    (hkeeps : Keeps effects other handled) (hmode : other.mode = socket.mode)
    (hblock : other.activityBlock = socket.activityBlock) :
    Keeps effects socket handled where
  faithful := hkeeps.faithful
  mode_eq := hkeeps.mode_eq.trans hmode
  activityBlock_eq := hkeeps.activityBlock_eq.trans hblock
  active := hkeeps.active

theorem Keeps.ofEffects {earlier : List TransferEffect}
    {handled : SocketHandled}
    (hkeeps : Keeps (effects ++ earlier) other handled)
    (hmode : other.mode = socket.mode)
    (hblock : other.activityBlock = socket.activityBlock) :
    Keeps effects socket (handled.after earlier) where
  faithful := by
    have hfaithful := hkeeps.faithful
    rw [List.append_assoc] at hfaithful
    exact hfaithful
  mode_eq := hkeeps.mode_eq.trans hmode
  activityBlock_eq := hkeeps.activityBlock_eq.trans hblock
  active := hkeeps.active

theorem Faithful.congr
    (hfaithful : Faithful effects socket) (hmode : other.mode = socket.mode)
    (hreason : other.endReason = socket.endReason)
    (hheld : other.held = socket.held) :
    Faithful effects other where
  ends := by rw [hreason]; exact hfaithful.ends
  unblocked := hfaithful.unblocked
  nothingLate := hfaithful.nothingLate
  balanced := by
    rw [hreason, hmode, hheld]
    exact hfaithful.balanced
  complete := by
    rw [hreason, hmode]
    exact hfaithful.complete

theorem Faithful.keeps (hfaithful : Faithful effects socket) :
    Keeps effects socket ⟨socket, [], false⟩ where
  faithful := by
    rw [List.append_nil]
    exact hfaithful
  mode_eq := rfl
  activityBlock_eq := rfl
  active := fun hagain => by cases hagain

theorem Faithful.extend {more : List TransferEffect}
    (hfaithful : Faithful effects socket) (hactive : socket.endReason = .none)
    (hreason : other.endReason = .none)
    (hends : more.count .transferEnd = 0)
    (hblock : ∀ effect ∈ more, effect.payloadBlock = 0)
    (hlate : receivedBytes (fromEnd (effects ++ more)) = [])
    (hbalanced : Balanced (effects ++ more) other.mode other.held) :
    Faithful (effects ++ more) other where
  ends := by
    have hcount := hfaithful.ends
    rw [hactive] at hcount
    rw [List.count_append, hcount, hends, hreason]
    rfl
  unblocked := by
    intro effect hmem
    rcases List.mem_append.mp hmem with hold | hnew
    · exact hfaithful.unblocked effect hold
    · exact hblock effect hnew
  nothingLate := hlate
  balanced := fun _ => hbalanced
  complete := by
    intro hsuccess
    rw [hreason] at hsuccess
    cases hsuccess

structure Quiet (effect : TransferEffect) : Prop where
  received : receivedBytes [effect] = []
  handed : handedBytes [effect] = []
  sent : sentBytes [effect] = []
  fetched : fetchedBytes [effect] = []
  block : effect.payloadBlock = 0

theorem late_of_received_nil {more : List TransferEffect}
    (hlate : receivedBytes (fromEnd effects) = [])
    (hmore : receivedBytes (fromEnd more) = [])
    (hreceived : .endOfFile ∈ effects → receivedBytes more = []) :
    receivedBytes (fromEnd (effects ++ more)) = [] := by
  by_cases hend : .endOfFile ∈ effects
  · rw [fromEnd_of_mem hend, receivedBytes_append, hlate, hreceived hend]
    rfl
  · rw [fromEnd_of_not_mem hend]
    exact hmore

theorem fromEnd_singleton (effect : TransferEffect) :
    receivedBytes (fromEnd [effect]) = [] := by
  unfold fromEnd
  by_cases hend : effect = .endOfFile
  · rw [hend]
    rfl
  · rw [List.dropWhile_cons_of_pos (by simpa)]
    rfl

theorem Balanced.quiet {mode : TransferMode} {held : List UInt8}
    {effect : TransferEffect} (hbalanced : Balanced effects mode held)
    (hquiet : Quiet effect) : Balanced (effects ++ [effect]) mode held := by
  unfold Balanced
  rw [handedBytes_append, receivedBytes_append, sentBytes_append,
    fetchedBytes_append, hquiet.received, hquiet.handed, hquiet.sent,
    hquiet.fetched]
  simp only [List.append_nil]
  exact hbalanced

theorem Complete.quiet {mode : TransferMode} {effect : TransferEffect}
    (hcomplete : Complete effects mode) (hquiet : Quiet effect) :
    Complete (effects ++ [effect]) mode := by
  unfold Complete
  rw [handedBytes_append, receivedBytes_append, sentBytes_append,
    fetchedBytes_append, hquiet.received, hquiet.handed, hquiet.sent,
    hquiet.fetched]
  simp only [List.append_nil]
  refine ⟨?_, hcomplete.2⟩
  intro hmode
  rcases hcomplete.1 hmode with ⟨hbytes, hend, hfinal⟩
  exact ⟨hbytes, List.mem_append_left _ hend, List.mem_append_left _ hfinal⟩

theorem Faithful.quiet {effect : TransferEffect}
    (hfaithful : Faithful effects socket) (hquiet : Quiet effect)
    (hend : effect ≠ .transferEnd) :
    Faithful (effects ++ [effect]) socket where
  ends := by
    have hcount : [effect].count .transferEnd = 0 := by
      rw [List.count_eq_zero, List.mem_singleton]
      exact hend.symm
    rw [List.count_append, hfaithful.ends, hcount, Nat.add_zero]
  unblocked := by
    intro other hmem
    rcases List.mem_append.mp hmem with hold | hnew
    · exact hfaithful.unblocked other hold
    · rw [List.mem_singleton.mp hnew]
      exact hquiet.block
  nothingLate :=
    late_of_received_nil hfaithful.nothingLate
      (fromEnd_singleton effect) fun _ => hquiet.received
  balanced := fun hactive => (hfaithful.balanced hactive).quiet hquiet
  complete := fun hsuccess => (hfaithful.complete hsuccess).quiet hquiet

/-! ## Ends and waits -/

theorem quiet_transferEnd : Quiet TransferEffect.transferEnd :=
  ⟨rfl, rfl, rfl, rfl, rfl⟩

theorem transferEnd_keeps
    (hfaithful : Faithful effects socket) {reason : TransferEndReason}
    (hreason : reason ≠ .none)
    (hcomplete :
      socket.endReason = .none → reason = .successful →
        Complete effects socket.mode) :
    Keeps effects socket (socket.transferEnd reason) := by
  unfold transferEnd
  by_cases hended : socket.endReason ≠ .none
  · rw [if_pos hended]
    exact hfaithful.keeps
  · rw [if_neg hended]
    have hactive := not_not.mp hended
    have hends :
        (effects ++ [TransferEffect.transferEnd]).count .transferEnd = 1 := by
      rw [List.count_append, hfaithful.ends, if_pos hactive]
      rfl
    have hunblocked :
        ∀ effect ∈ effects ++ [TransferEffect.transferEnd],
          effect.payloadBlock = 0 := by
      intro effect hmem
      rcases List.mem_append.mp hmem with hold | hnew
      · exact hfaithful.unblocked effect hold
      · rw [List.mem_singleton.mp hnew]
        rfl
    have hlate :=
      late_of_received_nil hfaithful.nothingLate
        (fromEnd_singleton .transferEnd) fun _ => rfl
    by_cases hsuccess : reason ≠ .successful
    · dsimp only
      rw [if_pos hsuccess]
      refine ⟨⟨?_, hunblocked, hlate, ?_, ?_⟩, rfl, rfl, ?_⟩
      · rw [hends]
        exact (if_neg hreason).symm
      · exact fun hnone => absurd hnone hreason
      · exact fun hdone => absurd hdone hsuccess
      · exact fun hagain => by cases hagain
    · dsimp only
      rw [if_neg hsuccess]
      refine ⟨⟨?_, hunblocked, hlate, ?_, ?_⟩, rfl, rfl, ?_⟩
      · rw [hends]
        exact (if_neg hreason).symm
      · exact fun hnone => absurd hnone hreason
      · exact fun _ =>
          (hcomplete hactive (not_not.mp hsuccess)).quiet quiet_transferEnd
      · exact fun hagain => by cases hagain

theorem fail_keeps
    (hfaithful : Faithful effects socket) {reason : TransferEndReason}
    (hreason : reason ≠ .none) (hfail : reason ≠ .successful) :
    Keeps effects socket (socket.transferEnd reason) :=
  transferEnd_keeps hfaithful hreason fun _ hsuccess =>
    absurd hsuccess hfail

theorem finishCall_keeps
    (hfaithful : Faithful effects socket) (hactive : socket.endReason = .none)
    (result : AioResult) : Keeps effects socket (socket.finishCall result) := by
  cases result with
  | wait => exact hfaithful.keeps
  | error => exact fail_keeps hfaithful (by decide) (by decide)
  | ok =>
      have hkeeps := hfaithful.keeps
      exact ⟨hkeeps.faithful, rfl, rfl, fun _ => hactive⟩

/-! ## Receiving -/

def SocketAnswersQuiet (answers : SocketAnswers) : Prop :=
  ∀ first rest, ReadAnswer.data first rest ∉ answers.reads

variable {answers : SocketAnswers}

theorem takePoolBuffer_keeps
    (hfaithful : Faithful effects socket) (hactive : socket.endReason = .none)
    (hbuffer : socket.buffer = none) :
    Keeps effects socket (socket.takePoolBuffer answers) := by
  unfold takePoolBuffer
  cases answers.poolBuffer with
  | none => exact hfaithful.keeps
  | some capacity =>
      have hother :
          Faithful effects { socket with buffer := some ⟨[], capacity⟩ } :=
        hfaithful.congr rfl rfl (by simp [held, hbuffer])
      exact (finishCall_keeps hother hactive .ok).congr rfl rfl

theorem Faithful.handed {buffer : TransferBuffer}
    (hfaithful : Faithful effects socket) (hactive : socket.endReason = .none)
    (hmode : socket.mode = .download) (hbuffer : socket.buffer = some buffer) :
    Faithful (effects ++ [.handed buffer.bytes])
      { socket with buffer := none } := by
  have hbalanced := (hfaithful.balanced hactive).1 hmode
  refine hfaithful.extend hactive hactive rfl ?_ ?_ ⟨?_, ?_⟩
  · intro effect hmem
    rw [List.mem_singleton.mp hmem]
    rfl
  · exact late_of_received_nil hfaithful.nothingLate (fromEnd_singleton _)
      fun _ => rfl
  · intro _
    rw [handedBytes_append, receivedBytes_append, ← hbalanced]
    simp [held, hbuffer, handedBytes, receivedBytes]
  · intro hupload
    have hdownload : socket.mode = .upload := hupload
    rw [hmode] at hdownload
    cases hdownload

theorem checkGetNextWriteBuffer_keeps
    (hfaithful : Faithful effects socket) (hactive : socket.endReason = .none)
    (hmode : socket.mode = .download) :
    Keeps effects socket (socket.checkGetNextWriteBuffer answers) := by
  unfold checkGetNextWriteBuffer
  cases hbuffer : socket.buffer with
  | none => exact takePoolBuffer_keeps hfaithful hactive hbuffer
  | some buffer =>
      dsimp only
      by_cases hfull : buffer.bytes.length ≥ buffer.capacity
      · rw [if_pos hfull]
        have hhanded := hfaithful.handed hactive hmode hbuffer
        by_cases hadd : answers.addBuffer = .ok
        · rw [if_pos hadd]
          exact Keeps.ofEffects (takePoolBuffer_keeps hhanded hactive rfl)
            rfl rfl
        · rw [if_neg hadd]
          exact Keeps.ofEffects (finishCall_keeps hhanded hactive _) rfl rfl
      · rw [if_neg hfull]
        exact finishCall_keeps hfaithful hactive .ok

theorem finishFile_keeps
    (hfaithful : Faithful effects socket) {result : AioResult}
    (hcomplete : result = .ok → Complete effects socket.mode) :
    Keeps effects socket (socket.finishFile result) := by
  cases result with
  | wait => exact hfaithful.keeps
  | error => exact fail_keeps hfaithful (by decide) (by decide)
  | ok =>
      exact transferEnd_keeps hfaithful (by decide)
        fun _ _ => hcomplete rfl

theorem quiet_finalized (result : AioResult) :
    Quiet (.finalized result) := ⟨rfl, rfl, rfl, rfl, rfl⟩

theorem finalized_keeps
    (hfaithful : Faithful effects socket) (hactive : socket.endReason = .none)
    (hmode : socket.mode = .download) (hheld : socket.held = [])
    (hend : .endOfFile ∈ effects) (result : AioResult) :
    Keeps (effects ++ [.finalized result]) socket
      (socket.finishFile result) := by
  have hquiet := hfaithful.quiet (quiet_finalized result) (by simp)
  refine finishFile_keeps hquiet ?_
  intro hok
  have hbalanced := ((hquiet.balanced hactive).1 hmode)
  rw [hheld, List.append_nil] at hbalanced
  refine ⟨fun _ => ⟨hbalanced, List.mem_append_left _ hend, ?_⟩, ?_⟩
  · rw [hok]
    exact List.mem_append_right _ List.mem_cons_self
  · intro hupload
    rw [hmode] at hupload
    cases hupload

theorem finalizeWrite_keeps {buffer : TransferBuffer}
    (hfaithful : Faithful effects socket) (hactive : socket.endReason = .none)
    (hmode : socket.mode = .download) (hbuffer : socket.buffer = some buffer)
    (hend : .endOfFile ∈ effects) :
    Keeps effects socket (socket.finalizeWrite buffer answers) := by
  unfold finalizeWrite
  rw [if_neg (not_not.mpr hactive)]
  by_cases hsome : (!buffer.bytes.isEmpty) = true
  · rw [if_pos hsome]
    have hhanded := hfaithful.handed hactive hmode hbuffer
    have hmem : .endOfFile ∈ effects ++ [.handed buffer.bytes] :=
      List.mem_append_left _ hend
    dsimp only
    by_cases hadd : answers.addBuffer = .ok
    · rw [if_pos hadd]
      have hfinal :=
        finalized_keeps hhanded hactive hmode rfl hmem answers.finalize
      rw [List.append_assoc] at hfinal
      exact Keeps.ofEffects hfinal rfl rfl
    · rw [if_neg hadd]
      have hfinish :=
        finishFile_keeps hhanded fun hok : answers.addBuffer = .ok =>
          absurd hok hadd
      exact Keeps.ofEffects hfinish rfl rfl
  · rw [if_neg hsome]
    have hheld : socket.held = [] := by
      have hempty : buffer.bytes = [] := by simpa using hsome
      simp [held, hbuffer, hempty]
    exact Keeps.ofEffects
      (finalized_keeps hfaithful hactive hmode hheld hend answers.finalize)
      rfl rfl

theorem quiet_endOfFile : Quiet .endOfFile := ⟨rfl, rfl, rfl, rfl, rfl⟩

theorem end_not_mem_of_data
    (hreads : .endOfFile ∈ effects → SocketAnswersQuiet answers)
    {first : UInt8} {rest : List UInt8}
    (hread : ReadAnswer.data first rest ∈ answers.reads) :
    .endOfFile ∉ effects := by
  intro hend
  exact hreads hend first rest hread

theorem mem_reads_of_headD {answer : ReadAnswer}
    (hanswer : answers.reads.headD .again = answer) (hne : answer ≠ .again) :
    answer ∈ answers.reads := by
  cases hreads : answers.reads with
  | nil =>
      rw [hreads] at hanswer
      exact absurd hanswer.symm hne
  | cons read reads =>
      rw [hreads] at hanswer
      rw [← hanswer]
      exact List.mem_cons_self

theorem receiveInto_keeps {buffer : TransferBuffer}
    (hfaithful : Faithful effects socket) (hactive : socket.endReason = .none)
    (hmode : socket.mode = .download) (hbuffer : socket.buffer = some buffer)
    (hblock : socket.activityBlock = 0)
    (hreads : .endOfFile ∈ effects → SocketAnswersQuiet answers) :
    Keeps effects socket (socket.receiveInto buffer answers) := by
  unfold receiveInto
  cases hanswer : answers.reads.headD .again with
  | again => exact hfaithful.keeps
  | error => exact fail_keeps hfaithful (by decide) (by decide)
  | eof =>
      have hended := hfaithful.quiet quiet_endOfFile (by simp)
      exact Keeps.ofEffects
        (finalizeWrite_keeps hended hactive hmode hbuffer (by simp)) rfl rfl
  | data first rest =>
      have hend :=
        end_not_mem_of_data hreads (mem_reads_of_headD hanswer (by simp))
      have hbalanced := (hfaithful.balanced hactive).1 hmode
      refine ⟨?_, rfl, rfl, fun _ => hactive⟩
      refine hfaithful.extend hactive hactive rfl ?_ ?_ ⟨?_, ?_⟩
      · intro effect hmem
        rw [List.mem_singleton.mp hmem]
        exact hblock
      · rw [fromEnd_of_not_mem hend]
        exact fromEnd_singleton _
      · intro _
        rw [handedBytes_append, receivedBytes_append, ← hbalanced]
        simp [held, hbuffer, handedBytes, receivedBytes]
      · intro hupload
        have hdownload : socket.mode = .upload := hupload
        rw [hmode] at hdownload
        cases hdownload

theorem balanced_of_mode {mode : TransferMode}
    (hdownload : mode ≠ .download) (hupload : mode ≠ .upload)
    (effects : List TransferEffect) (held : List UInt8) :
    Balanced effects mode held :=
  ⟨fun hmode => absurd hmode hdownload, fun hmode => absurd hmode hupload⟩

theorem complete_of_mode {mode : TransferMode}
    (hdownload : mode ≠ .download) (hupload : mode ≠ .upload)
    (effects : List TransferEffect) : Complete effects mode :=
  ⟨fun hmode => absurd hmode hdownload, fun hmode => absurd hmode hupload⟩

theorem Faithful.received {more : List TransferEffect}
    (hfaithful : Faithful effects socket) (hactive : socket.endReason = .none)
    (hreason : other.endReason = .none)
    (hdownload : other.mode ≠ .download) (hupload : other.mode ≠ .upload)
    (hend : .endOfFile ∉ effects)
    (hends : more.count .transferEnd = 0)
    (hblock : ∀ effect ∈ more, effect.payloadBlock = 0)
    (hlate : receivedBytes (fromEnd more) = []) :
    Faithful (effects ++ more) other := by
  refine hfaithful.extend hactive hreason hends hblock ?_
    (balanced_of_mode hdownload hupload _ _)
  rw [fromEnd_of_not_mem hend]
  exact hlate

theorem receiveListing_keeps
    (hfaithful : Faithful effects socket) (hactive : socket.endReason = .none)
    (hmode : socket.mode = .list) (hblock : socket.activityBlock = 0)
    (hreads : .endOfFile ∈ effects → SocketAnswersQuiet answers) :
    Keeps effects socket (socket.receiveListing answers) := by
  have hdownload : socket.mode ≠ .download := by simp [hmode]
  have hupload : socket.mode ≠ .upload := by simp [hmode]
  unfold receiveListing
  cases hanswer : answers.reads.headD .again with
  | again => exact hfaithful.keeps
  | error => exact fail_keeps hfaithful (by decide) (by decide)
  | eof =>
      have hended := hfaithful.quiet quiet_endOfFile (by simp)
      exact Keeps.ofEffects
        (transferEnd_keeps hended (by decide)
          fun _ _ => complete_of_mode hdownload hupload _) rfl rfl
  | data first rest =>
      have hend :=
        end_not_mem_of_data hreads (mem_reads_of_headD hanswer (by simp))
      dsimp only
      have hlisted :
          Faithful
            (effects ++
              [.received socket.activityBlock ((first :: rest).take 4096),
                .listed ((first :: rest).take 4096)]) socket := by
        refine hfaithful.received hactive hactive hdownload hupload hend rfl
          ?_ rfl
        intro effect hmem
        rcases List.mem_pair.mp hmem with rfl | rfl
        · exact hblock
        · rfl
      by_cases hparsed : (!answers.parsed) = true
      · rw [if_pos hparsed]
        exact Keeps.ofEffects
          (fail_keeps hlisted (by decide) (by decide)) rfl rfl
      · rw [if_neg hparsed]
        exact ⟨hlisted, rfl, rfl, fun _ => hactive⟩

theorem receiveResumetest_keeps
    (reads : List ReadAnswer) {effects : List TransferEffect}
    {socket : TransferSocket}
    (hfaithful : Faithful effects socket) (hactive : socket.endReason = .none)
    (hmode : socket.mode = .resumetest) (hblock : socket.activityBlock = 0)
    (hreads :
      .endOfFile ∈ effects → ∀ first rest, .data first rest ∉ reads) :
    Keeps effects socket (socket.receiveResumetest reads) := by
  induction reads generalizing effects socket with
  | nil => exact hfaithful.keeps
  | cons read reads ih =>
      have hdownload : socket.mode ≠ .download := by simp [hmode]
      have hupload : socket.mode ≠ .upload := by simp [hmode]
      cases read with
      | again => exact hfaithful.keeps
      | error => exact fail_keeps hfaithful (by decide) (by decide)
      | eof =>
          have hended := hfaithful.quiet quiet_endOfFile (by simp)
          refine Keeps.ofEffects (transferEnd_keeps hended ?_
            fun _ _ => complete_of_mode hdownload hupload _) rfl rfl
          by_cases hone : socket.resumetest = 1
          · rw [if_pos hone]
            decide
          · rw [if_neg hone]
            decide
      | data first rest =>
          have hend : .endOfFile ∉ effects := by
            intro hmem
            exact hreads hmem first rest List.mem_cons_self
          unfold receiveResumetest
          dsimp only
          have hreceived (count : ℕ) :
              Faithful
                (effects ++
                  [.received socket.activityBlock ((first :: rest).take 2)])
                { socket with resumetest := count } := by
            refine hfaithful.received hactive hactive hdownload hupload hend
              rfl ?_ (fromEnd_singleton _)
            intro effect hmem
            rw [List.mem_singleton.mp hmem]
            exact hblock
          by_cases hmore :
              socket.resumetest + ((first :: rest).take 2).length > 1
          · rw [if_pos hmore]
            exact Keeps.ofEffects
              (fail_keeps (hreceived _) (by decide) (by decide)) rfl rfl
          · rw [if_neg hmore]
            refine Keeps.ofEffects (ih (hreceived _) hactive hmode hblock ?_)
              rfl rfl
            intro hmem
            rcases List.mem_append.mp hmem with hold | hnew
            · exact absurd hold hend
            · cases List.mem_singleton.mp hnew

theorem Faithful.reset
    (hfaithful : Faithful effects socket)
    (hended : socket.endReason ≠ .none) :
    Faithful effects socket.resetSocket where
  ends := hfaithful.ends
  unblocked := hfaithful.unblocked
  nothingLate := hfaithful.nothingLate
  balanced := fun hactive => absurd hactive hended
  complete := hfaithful.complete

theorem receiveDiscard_keeps
    (hfaithful : Faithful effects socket)
    (hblock : socket.activityBlock = 0) :
    Keeps effects socket (socket.receiveDiscard answers) := by
  have hwait : Keeps effects socket ⟨socket, [], false⟩ := hfaithful.keeps
  unfold receiveDiscard
  cases hanswer : answers.reads.headD .again with
  | again =>
      dsimp only
      by_cases hactive : socket.endReason = .none
      · rw [if_pos hactive]
        exact hwait
      · rw [if_neg hactive]
        exact hwait
  | error =>
      dsimp only
      by_cases hactive : socket.endReason = .none
      · rw [if_pos hactive]
        have hfail := fail_keeps hfaithful
          (show TransferEndReason.transferFailure ≠ .none by decide)
          (by decide)
        rw [← List.append_nil effects] at hfail
        exact Keeps.ofEffects hfail rfl rfl
      · rw [if_neg hactive]
        refine ⟨?_, rfl, rfl, fun hagain => by cases hagain⟩
        rw [List.append_nil]
        exact hfaithful.reset hactive
  | eof =>
      have hended := hfaithful.quiet quiet_endOfFile (by simp)
      dsimp only
      by_cases hactive : socket.endReason = .none
      · rw [if_pos hactive]
        exact ⟨hended, rfl, rfl, fun hagain => by cases hagain⟩
      · rw [if_neg hactive]
        exact ⟨hended.reset hactive, rfl, rfl, fun hagain => by cases hagain⟩
  | data first rest =>
      have hquiet :
          Quiet
            (.discarded socket.activityBlock ((first :: rest).take 1024)) :=
        ⟨rfl, rfl, rfl, rfl, hblock⟩
      have hdropped := hfaithful.quiet hquiet (by simp)
      dsimp only
      by_cases hactive : socket.endReason = .none
      · rw [if_pos hactive]
        exact Keeps.ofEffects
          (fail_keeps hdropped (by decide) (by decide)) rfl rfl
      · rw [if_neg hactive]
        exact ⟨hdropped, rfl, rfl, fun hagain => by cases hagain⟩

theorem transferEnd_end (socket : TransferSocket)
    (reason : TransferEndReason) :
    .endOfFile ∉ (socket.transferEnd reason).effects := by
  unfold transferEnd
  by_cases hended : socket.endReason ≠ .none
  · rw [if_pos hended]
    exact List.not_mem_nil
  · rw [if_neg hended]
    by_cases hsuccess : reason ≠ .successful
    · dsimp only
      rw [if_pos hsuccess]
      simp
    · dsimp only
      rw [if_neg hsuccess]
      simp

theorem finishCall_end (socket : TransferSocket) (result : AioResult) :
    .endOfFile ∉ (socket.finishCall result).effects := by
  cases result with
  | wait => exact List.not_mem_nil
  | error => exact transferEnd_end socket _
  | ok => exact List.not_mem_nil

theorem takePoolBuffer_end (socket : TransferSocket)
    (answers : SocketAnswers) :
    .endOfFile ∉ (socket.takePoolBuffer answers).effects := by
  unfold takePoolBuffer
  cases answers.poolBuffer with
  | none => exact List.not_mem_nil
  | some capacity => exact List.not_mem_nil

theorem checkGetNextWriteBuffer_end (socket : TransferSocket)
    (answers : SocketAnswers) :
    .endOfFile ∉ (socket.checkGetNextWriteBuffer answers).effects := by
  unfold checkGetNextWriteBuffer
  cases socket.buffer with
  | none => exact takePoolBuffer_end socket answers
  | some buffer =>
      dsimp only
      by_cases hfull : buffer.bytes.length ≥ buffer.capacity
      · rw [if_pos hfull]
        intro hmem
        rcases List.mem_cons.mp hmem with hhead | htail
        · cases hhead
        · by_cases hadd : answers.addBuffer = .ok
          · rw [if_pos hadd] at htail
            exact takePoolBuffer_end _ _ htail
          · rw [if_neg hadd] at htail
            exact finishCall_end _ _ htail
      · rw [if_neg hfull]
        exact finishCall_end socket _

theorem onReceive_keeps {handled : SocketHandled}
    (hfaithful : Faithful effects socket)
    (hreads : .endOfFile ∈ effects → SocketAnswersQuiet answers)
    (hhandled : socket.onReceive answers = some handled) :
    Keeps effects socket handled := by
  unfold onReceive at hhandled
  by_cases hblock : socket.activityBlock ≠ 0
  · rw [if_pos hblock] at hhandled
    cases hhandled
    have hpostponed :
        Faithful effects { socket with postponedReceive := true } :=
      hfaithful.congr rfl rfl rfl
    exact hpostponed.keeps.congr rfl rfl
  · rw [if_neg hblock] at hhandled
    have hfree := not_not.mp hblock
    by_cases hlist : socket.endReason = .none ∧ socket.mode = .list
    · rw [if_pos hlist] at hhandled
      by_cases hlayer : socket.socket = true
      · rw [if_pos hlayer] at hhandled
        cases hhandled
        exact receiveListing_keeps hfaithful hlist.1 hlist.2 hfree hreads
      · rw [if_neg hlayer] at hhandled
        cases hhandled
    · rw [if_neg hlist] at hhandled
      by_cases hdownload : socket.endReason = .none ∧ socket.mode = .download
      · rw [if_pos hdownload] at hhandled
        have hchecked :=
          @checkGetNextWriteBuffer_keeps effects socket answers hfaithful
            hdownload.1 hdownload.2
        dsimp only at hhandled
        by_cases hagain :
            (!(socket.checkGetNextWriteBuffer answers).again) = true
        · rw [if_pos hagain] at hhandled
          cases hhandled
          exact hchecked
        · rw [if_neg hagain] at hhandled
          cases hbuffer :
              (socket.checkGetNextWriteBuffer answers).socket.buffer with
          | none =>
              rw [hbuffer] at hhandled
              cases hhandled
          | some buffer =>
              rw [hbuffer] at hhandled
              dsimp only at hhandled
              by_cases hlayer :
                  (socket.checkGetNextWriteBuffer answers).socket.socket = true
              · rw [if_pos hlayer] at hhandled
                cases hhandled
                have hactive := hchecked.active (by simpa using hagain)
                have hend :
                    .endOfFile ∈
                        effects ++
                          (socket.checkGetNextWriteBuffer answers).effects →
                      SocketAnswersQuiet answers := by
                  intro hmem
                  rcases List.mem_append.mp hmem with hold | hnew
                  · exact hreads hold
                  · exact absurd hnew
                      (checkGetNextWriteBuffer_end socket answers)
                exact hchecked.trans
                  (receiveInto_keeps hchecked.faithful hactive
                    (hchecked.mode_eq.trans hdownload.2) hbuffer
                    (hchecked.activityBlock_eq.trans hfree) hend)
              · rw [if_neg hlayer] at hhandled
                cases hhandled
      · rw [if_neg hdownload] at hhandled
        by_cases hresume :
            socket.endReason = .none ∧ socket.mode = .resumetest
        · rw [if_pos hresume] at hhandled
          by_cases hlayer : socket.socket = true
          · rw [if_pos hlayer] at hhandled
            cases hhandled
            exact receiveResumetest_keeps answers.reads hfaithful hresume.1
              hresume.2 hfree hreads
          · rw [if_neg hlayer] at hhandled
            cases hhandled
        · rw [if_neg hresume] at hhandled
          by_cases hlayer : socket.socket = true
          · rw [if_pos hlayer] at hhandled
            cases hhandled
            exact receiveDiscard_keeps hfaithful hfree
          · rw [if_neg hlayer] at hhandled
            cases hhandled

/-! ## Sending -/

theorem finishSending_keeps
    (hfaithful : Faithful effects socket) (hactive : socket.endReason = .none)
    (hmode : socket.mode = .upload) (hheld : socket.held = [])
    (shutdown : ShutdownAnswer) :
    Keeps effects socket (socket.finishSending shutdown) := by
  cases shutdown with
  | again => exact hfaithful.keeps
  | error => exact fail_keeps hfaithful (by decide) (by decide)
  | done =>
      refine transferEnd_keeps hfaithful (by decide) ?_
      intro _ _
      have hbalanced := (hfaithful.balanced hactive).2 hmode
      rw [hheld, List.append_nil] at hbalanced
      refine ⟨?_, fun _ => hbalanced⟩
      intro hdownload
      rw [hmode] at hdownload
      cases hdownload

theorem checkGetNextReadBuffer_keeps
    (hfaithful : Faithful effects socket) (hactive : socket.endReason = .none)
    (hmode : socket.mode = .upload) :
    Keeps effects socket (socket.checkGetNextReadBuffer answers) := by
  unfold checkGetNextReadBuffer
  by_cases hempty :
      (socket.buffer.map TransferBuffer.bytes).getD [] = []
  · rw [if_pos hempty]
    dsimp only
    by_cases hread : answers.readBuffer.1 = .ok
    · rw [if_pos hread]
      have hbalanced := (hfaithful.balanced hactive).2 hmode
      have hheld : socket.held = [] := hempty
      rw [hheld, List.append_nil] at hbalanced
      have hfetched :
          Faithful (effects ++ [.fetched answers.readBuffer.2])
            { socket with
              buffer := some ⟨answers.readBuffer.2,
                answers.readBuffer.2.length⟩ } := by
        refine hfaithful.extend hactive hactive rfl ?_ ?_ ⟨?_, ?_⟩
        · intro effect hmem
          rw [List.mem_singleton.mp hmem]
          rfl
        · exact late_of_received_nil hfaithful.nothingLate
            (fromEnd_singleton _) fun _ => rfl
        · intro hdownload
          have hupload : socket.mode = .download := hdownload
          rw [hmode] at hupload
          cases hupload
        · intro _
          rw [sentBytes_append, fetchedBytes_append, hbalanced]
          simp [held, sentBytes, fetchedBytes]
      by_cases hlast : answers.readBuffer.2 = []
      · rw [if_pos hlast]
        exact Keeps.ofEffects
          (finishSending_keeps hfetched hactive hmode hlast _) rfl rfl
      · rw [if_neg hlast]
        exact Keeps.ofEffects (finishCall_keeps hfetched hactive _) rfl rfl
    · rw [if_neg hread]
      have hreleased : Faithful effects { socket with buffer := none } := by
        refine hfaithful.congr rfl rfl ?_
        exact hempty.symm
      exact (finishCall_keeps hreleased hactive _).congr rfl rfl
  · rw [if_neg hempty]
    exact finishCall_keeps hfaithful hactive _

theorem sendFrom_keeps {buffer : TransferBuffer}
    (hfaithful : Faithful effects socket) (hactive : socket.endReason = .none)
    (hmode : socket.mode = .upload) (hbuffer : socket.buffer = some buffer)
    (hblock : socket.activityBlock = 0) :
    Keeps effects socket (socket.sendFrom buffer answers) := by
  have hfail :
      Keeps effects socket (socket.transferEnd .transferFailure) :=
    fail_keeps hfaithful (by decide) (by decide)
  unfold sendFrom
  cases answers.write with
  | again => exact hfaithful.keeps
  | error => exact hfail
  | written count =>
      cases count with
      | zero => exact hfail
      | succ count =>
          have hbalanced := (hfaithful.balanced hactive).2 hmode
          refine ⟨?_, rfl, rfl, fun _ => hactive⟩
          refine hfaithful.extend hactive hactive rfl ?_ ?_ ⟨?_, ?_⟩
          · intro effect hmem
            rw [List.mem_singleton.mp hmem]
            exact hblock
          · exact late_of_received_nil hfaithful.nothingLate
              (fromEnd_singleton _) fun _ => rfl
          · intro hdownload
            have hupload : socket.mode = .download := hdownload
            rw [hmode] at hupload
            cases hupload
          · intro _
            rw [sentBytes_append, fetchedBytes_append, ← hbalanced]
            simp [held, hbuffer, sentBytes, fetchedBytes]

theorem onSend_keeps (hfaithful : Faithful effects socket) :
    Keeps effects socket (socket.onSend answers) := by
  unfold onSend
  by_cases hlayer : (!socket.socket) = true
  · rw [if_pos hlayer]
    exact hfaithful.keeps
  · rw [if_neg hlayer]
    by_cases hblock : socket.activityBlock ≠ 0
    · rw [if_pos hblock]
      have hpostponed :
          Faithful effects { socket with postponedSend := true } :=
        hfaithful.congr rfl rfl rfl
      exact hpostponed.keeps.congr rfl rfl
    · rw [if_neg hblock]
      by_cases hidle : socket.mode ≠ .upload ∨ socket.endReason ≠ .none
      · rw [if_pos hidle]
        exact hfaithful.keeps
      · rw [if_neg hidle]
        rw [not_or, not_not, not_not] at hidle
        have hchecked :=
          @checkGetNextReadBuffer_keeps effects socket answers hfaithful
            hidle.2 hidle.1
        have hstopped :
            Keeps effects socket
              { socket.checkGetNextReadBuffer answers with again := false } :=
          ⟨hchecked.faithful, hchecked.mode_eq, hchecked.activityBlock_eq,
            fun hagain => by cases hagain⟩
        dsimp only
        cases hagain : (socket.checkGetNextReadBuffer answers).again with
        | false => exact hstopped
        | true =>
            cases hbuffer :
                (socket.checkGetNextReadBuffer answers).socket.buffer with
            | none => exact hstopped
            | some buffer =>
                exact hchecked.trans
                  (sendFrom_keeps hchecked.faithful (hchecked.active hagain)
                    (hchecked.mode_eq.trans hidle.1) hbuffer
                    (hchecked.activityBlock_eq.trans (not_not.mp hblock)))

/-! ## Events -/

theorem sendPostponed_keeps (hfaithful : Faithful effects socket) :
    Keeps effects socket (socket.sendPostponed answers) := by
  unfold sendPostponed
  by_cases hpostponed : socket.postponedSend = true
  · rw [if_pos hpostponed]
    have hcleared : Faithful effects { socket with postponedSend := false } :=
      hfaithful.congr rfl rfl rfl
    exact (onSend_keeps hcleared).congr rfl rfl
  · rw [if_neg hpostponed]
    exact hfaithful.keeps

theorem triggerPostponedEvents_keeps {handled : SocketHandled}
    (hfaithful : Faithful effects socket)
    (hreads : .endOfFile ∈ effects → SocketAnswersQuiet answers)
    (hhandled : socket.triggerPostponedEvents answers = some handled) :
    Keeps effects socket handled := by
  unfold triggerPostponedEvents at hhandled
  by_cases hblock : socket.activityBlock ≠ 0
  · rw [if_pos hblock] at hhandled
    cases hhandled
    exact hfaithful.keeps
  · rw [if_neg hblock] at hhandled
    by_cases hpostponed : socket.postponedReceive = true
    · rw [if_pos hpostponed] at hhandled
      have hcleared :
          Faithful effects { socket with postponedReceive := false } :=
        hfaithful.congr rfl rfl rfl
      cases hreceive :
          { socket with postponedReceive := false }.onReceive answers with
      | none =>
          rw [hreceive] at hhandled
          cases hhandled
      | some received =>
          rw [hreceive] at hhandled
          dsimp only at hhandled
          have hreceived : Keeps effects socket received :=
            (onReceive_keeps hcleared hreads hreceive).congr rfl rfl
          by_cases hended : received.socket.endReason ≠ .none
          · rw [if_pos hended] at hhandled
            cases hhandled
            exact hreceived
          · rw [if_neg hended] at hhandled
            cases hhandled
            exact hreceived.trans (sendPostponed_keeps hreceived.faithful)
    · rw [if_neg hpostponed] at hhandled
      cases hhandled
      exact sendPostponed_keeps hfaithful

theorem proceed_keeps {handled : SocketHandled}
    (hfaithful : Faithful effects socket)
    (hreads : .endOfFile ∈ effects → SocketAnswersQuiet answers)
    (hhandled : socket.proceed answers = some handled) :
    Keeps effects socket handled := by
  unfold proceed at hhandled
  cases htrigger : socket.triggerPostponedEvents answers with
  | none =>
      rw [htrigger] at hhandled
      cases hhandled
  | some triggered =>
      rw [htrigger] at hhandled
      cases hhandled
      have hkeeps := triggerPostponedEvents_keeps hfaithful hreads htrigger
      exact hkeeps.trans (onSend_keeps hkeeps.faithful)

theorem onConnect_faithful {handled : SocketHandled}
    (hfaithful : Faithful effects socket)
    (hreads : .endOfFile ∈ effects → SocketAnswersQuiet answers)
    (hhandled : socket.onConnect answers = some handled) :
    Faithful (effects ++ handled.effects) handled.socket := by
  have hproceed
      (hsame : socket.proceed answers = some handled) :
      Faithful (effects ++ handled.effects) handled.socket :=
    (proceed_keeps hfaithful hreads hsame).faithful
  have hfail {reason : TransferEndReason} (hreason : reason ≠ .none)
      (hsuccess : reason ≠ .successful)
      (hsame : some (socket.transferEnd reason) = some handled) :
      Faithful (effects ++ handled.effects) handled.socket := by
    cases hsame
    exact (fail_keeps hfaithful hreason hsuccess).faithful
  unfold onConnect at hhandled
  by_cases hlayer : (!socket.socket) = true
  · rw [if_pos hlayer] at hhandled
    cases hhandled
    exact hfaithful.keeps.faithful
  · rw [if_neg hlayer] at hhandled
    cases htls : answers.tls with
    | none =>
        rw [htls] at hhandled
        exact hproceed hhandled
    | some tls =>
        rw [htls] at hhandled
        dsimp only at hhandled
        by_cases halpn : tls.controlAlpn = true
        · rw [if_pos halpn] at hhandled
          by_cases hresumed : (!tls.resumed) = true
          · rw [if_pos hresumed] at hhandled
            exact hfail (by decide) (by decide) hhandled
          · rw [if_neg hresumed] at hhandled
            by_cases hdata : (!tls.dataAlpn) = true
            · rw [if_pos hdata] at hhandled
              exact hfail (by decide) (by decide) hhandled
            · rw [if_neg hdata] at hhandled
              exact hproceed hhandled
        · rw [if_neg halpn] at hhandled
          by_cases hresumed : tls.resumed = true
          · rw [if_pos hresumed] at hhandled
            exact hproceed hhandled
          · rw [if_neg hresumed] at hhandled
            cases hresumption : tls.resumption with
            | yes =>
                rw [hresumption] at hhandled
                exact hfail (by decide) (by decide) hhandled
            | no =>
                rw [hresumption] at hhandled
                exact hproceed hhandled
            | unknown =>
                rw [hresumption] at hhandled
                have hasked :
                    Faithful effects
                      { socket with
                        activityBlock := socket.activityBlock + 1 } :=
                  hfaithful.congr rfl rfl rfl
                exact (proceed_keeps hasked hreads hhandled).faithful

theorem unblock_faithful {handled : SocketHandled}
    (hfaithful : Faithful effects socket)
    (hreads : .endOfFile ∈ effects → SocketAnswersQuiet answers)
    (hhandled :
      { socket with
        activityBlock := socket.activityBlock - 1 }.triggerPostponedEvents
          answers = some handled) :
    Faithful (effects ++ handled.effects) handled.socket := by
  have hunblocked :
      Faithful effects
        { socket with activityBlock := socket.activityBlock - 1 } :=
    hfaithful.congr rfl rfl rfl
  exact (triggerPostponedEvents_keeps hunblocked hreads hhandled).faithful

theorem setActive_faithful {handled : SocketHandled}
    (hfaithful : Faithful effects socket)
    (hreads : .endOfFile ∈ effects → SocketAnswersQuiet answers)
    (hhandled : socket.setActive answers = some handled) :
    Faithful (effects ++ handled.effects) handled.socket := by
  unfold setActive at hhandled
  by_cases hidle : socket.endReason ≠ .none ∨ socket.activityBlock = 0
  · rw [if_pos hidle] at hhandled
    cases hhandled
    exact hfaithful.keeps.faithful
  · rw [if_neg hidle] at hhandled
    dsimp only at hhandled
    by_cases hconnected :
        socket.socket = true ∧ answers.connected = true
    · rw [if_pos hconnected] at hhandled
      exact unblock_faithful hfaithful hreads hhandled
    · rw [if_neg hconnected] at hhandled
      cases hhandled
      have hunblocked :
          Faithful effects
            { socket with activityBlock := socket.activityBlock - 1 } :=
        hfaithful.congr rfl rfl rfl
      exact hunblocked.keeps.faithful

theorem continueWithoutSessionResumption_faithful {handled : SocketHandled}
    (hfaithful : Faithful effects socket)
    (hreads : .endOfFile ∈ effects → SocketAnswersQuiet answers)
    (hhandled :
      socket.continueWithoutSessionResumption answers = some handled) :
    Faithful (effects ++ handled.effects) handled.socket := by
  unfold continueWithoutSessionResumption at hhandled
  by_cases hidle : socket.activityBlock = 0
  · rw [if_pos hidle] at hhandled
    cases hhandled
    exact hfaithful.keeps.faithful
  · rw [if_neg hidle] at hhandled
    exact unblock_faithful hfaithful hreads hhandled

/-- One event loses and doubles no byte. -/
theorem handle_faithful {event : TransferSocketEvent}
    {handled : SocketHandled}
    (hfaithful : Faithful effects socket)
    (hreads : .endOfFile ∈ effects → SocketAnswersQuiet answers)
    (hhandled : DataConnection.handle socket answers event = some handled) :
    Faithful (effects ++ handled.effects) handled.socket := by
  cases event with
  | layers =>
      simp only [DataConnection.handle] at hhandled
      by_cases hnew : socket.endReason = .none ∧ (!socket.socket) = true
      · rw [if_pos hnew] at hhandled
        cases hhandled
        have hlayers : Faithful effects { socket with socket := true } :=
          hfaithful.congr rfl rfl rfl
        exact hlayers.keeps.faithful
      · rw [if_neg hnew] at hhandled
        cases hhandled
        exact hfaithful.keeps.faithful
  | connection => exact onConnect_faithful hfaithful hreads hhandled
  | read => exact (onReceive_keeps hfaithful hreads hhandled).faithful
  | write =>
      cases hhandled
      exact (onSend_keeps hfaithful).faithful
  | socketError =>
      cases hhandled
      exact (fail_keeps hfaithful (by decide) (by decide)).faithful
  | setActive => exact setActive_faithful hfaithful hreads hhandled
  | continueWithoutSessionResumption =>
      exact continueWithoutSessionResumption_faithful hfaithful hreads hhandled
  | available object =>
      cases object with
      | reader =>
          cases hhandled
          exact (onSend_keeps hfaithful).faithful
      | writer => exact (onReceive_keeps hfaithful hreads hhandled).faithful
      | bufferPool =>
          exact (onReceive_keeps hfaithful hreads hhandled).faithful

end TransferSocket

/-! ## Runs -/

open TransferSocket

/-- After the end of the connection no read returns data. -/
def EofStays (connection : DataConnection)
    (input : TransferSocketEvent × SocketAnswers) : Prop :=
  connection.eof = true → SocketAnswersQuiet input.2

structure FaithfulRun (effects : List TransferEffect)
    (connection : DataConnection) : Prop where
  faithful : Faithful effects connection.socket
  eof_iff : connection.eof = true ↔ .endOfFile ∈ effects

theorem faithfulRun_initial {connection : DataConnection}
    (hinit : dataConnectionMachine.initial connection) :
    FaithfulRun [] connection := by
  rcases hinit with ⟨-, hreason, -, -, hbuffer, -, heof, -⟩
  refine ⟨⟨?_, ?_, rfl, ?_, ?_⟩, ?_⟩
  · rw [hreason]
    rfl
  · exact fun effect hmem => absurd hmem List.not_mem_nil
  · intro _
    simp [TransferSocket.Balanced, held, hbuffer, handedBytes, receivedBytes,
      sentBytes, fetchedBytes]
  · intro hsuccess
    rw [hreason] at hsuccess
    cases hsuccess
  · simp [heof]

theorem faithfulRun_step {connection following : DataConnection}
    {input : TransferSocketEvent × SocketAnswers}
    {effects answer : List TransferEffect}
    (hrun : FaithfulRun effects connection)
    (hstays : EofStays connection input)
    (hstep :
      dataConnectionMachine.step connection input = some (following, answer)) :
    FaithfulRun (effects ++ answer) following := by
  replace hstep : connection.step input = some (following, answer) := hstep
  unfold DataConnection.step at hstep
  by_cases hcrashed : connection.crashed = true
  · rw [if_pos hcrashed] at hstep
    cases hstep
  · rw [if_neg hcrashed] at hstep
    cases hhandle :
        DataConnection.handle connection.socket input.2 input.1 with
    | none =>
        rw [hhandle] at hstep
        cases hstep
        rw [List.append_nil]
        exact ⟨hrun.faithful, hrun.eof_iff⟩
    | some handled =>
        rw [hhandle] at hstep
        cases hstep
        refine ⟨?_, ?_⟩
        · exact handle_faithful hrun.faithful
            (fun hend => hstays (hrun.eof_iff.mpr hend)) hhandle
        · rw [Bool.or_eq_true, hrun.eof_iff, List.contains_iff_mem,
            List.mem_append]

/-- No byte is lost or doubled in any run. -/
theorem faithfulRun_of_reaches
    {inputs : List (TransferSocketEvent × SocketAnswers)}
    {effects : List TransferEffect} {connection : DataConnection}
    (hreach :
      dataConnectionMachine.ReachesWithin EofStays inputs effects connection) :
    FaithfulRun effects connection :=
  hreach.invariant FaithfulRun (fun _ => faithfulRun_initial)
    fun _ _ _ _ _ hrun hstays hstep => faithfulRun_step hrun hstays hstep

theorem receivedBytes_to_end {effects : List TransferEffect}
    (hlate : receivedBytes (fromEnd effects) = []) :
    receivedBytes (effects.takeWhile fun effect => effect ≠ .endOfFile) =
      receivedBytes effects := by
  have hsplit :
      effects.takeWhile (fun effect => effect ≠ .endOfFile) ++
        fromEnd effects = effects := List.takeWhile_append_dropWhile
  calc
    receivedBytes (effects.takeWhile fun effect => effect ≠ .endOfFile) =
        receivedBytes
            (effects.takeWhile fun effect => effect ≠ .endOfFile) ++
          receivedBytes (fromEnd effects) := by rw [hlate, List.append_nil]
    _ = receivedBytes effects := by rw [← receivedBytes_append, hsplit]

/-- A transfer that ends successfully has moved every byte once and in order,
the operation hears of one end at most, and nothing is moved while the control
connection blocks it. -/
theorem data_connection_integrity
    {inputs : List (TransferSocketEvent × SocketAnswers)}
    {effects : List TransferEffect} {connection : DataConnection}
    (hreach :
      dataConnectionMachine.ReachesWithin EofStays inputs effects connection) :
    (connection.socket.mode = .download →
      connection.socket.endReason = .successful →
        handedBytes effects =
            receivedBytes
              (effects.takeWhile fun effect => effect ≠ .endOfFile) ∧
          .endOfFile ∈ effects ∧ .finalized .ok ∈ effects) ∧
    (connection.socket.mode = .upload →
      connection.socket.endReason = .successful →
        sentBytes effects = fetchedBytes effects) ∧
    effects.count .transferEnd ≤ 1 ∧
    ∀ effect ∈ effects, effect.payloadBlock = 0 := by
  have hfaithful := (faithfulRun_of_reaches hreach).faithful
  refine ⟨?_, ?_, ?_, hfaithful.unblocked⟩
  · intro hmode hsuccess
    rcases (hfaithful.complete hsuccess).1 hmode with ⟨hbytes, hend, hfinal⟩
    rw [receivedBytes_to_end hfaithful.nothingLate]
    exact ⟨hbytes, hend, hfinal⟩
  · intro hmode hsuccess
    exact (hfaithful.complete hsuccess).2 hmode
  · rw [hfaithful.ends]
    by_cases hactive : connection.socket.endReason = .none
    · rw [if_pos hactive]
      exact Nat.zero_le 1
    · rw [if_neg hactive]

/-- A run of a new connection in which nothing comes after the end. -/
theorem eofStays_of_exec {mode : TransferMode}
    {inputs : List (TransferSocketEvent × SocketAnswers)}
    {effects : List TransferEffect} {connection : DataConnection}
    (hexec :
      dataConnectionMachine.exec (fun connection _ => connection.eof = false)
        ⟨⟨mode, false, 1, .none, false, false, none, 0⟩, false, false⟩ inputs =
          some (connection, effects)) :
    dataConnectionMachine.ReachesWithin EofStays inputs effects
      connection := by
  refine (Machine.ReachesWithin.exec (.start ?_) hexec).mono ?_
  · exact ⟨rfl, rfl, rfl, rfl, rfl, rfl, rfl, rfl⟩
  · intro connection input heof hend
    rw [heof] at hend
    cases hend

/-- A download of three bytes with buffers of two, where the second byte of a
read has no room and the pool lets the socket wait once, and an upload of two
bytes, one at a time. -/
theorem data_connection_integrity_download :
    let answers (reads : List ReadAnswer) (poolBuffer : Option ℕ+) :
        SocketAnswers :=
      ⟨true, none, reads, .again, .done, true, poolBuffer, .ok, .ok,
        (.wait, [])⟩
    let sends (bytes : List UInt8) : SocketAnswers :=
      ⟨true, none, [], .written 1, .done, true, none, .ok, .ok, (.ok, bytes)⟩
    let download : List (TransferSocketEvent × SocketAnswers) :=
      [(.layers, answers [] none), (.read, answers [] none),
        (.setActive, answers [.data 1 [2, 3]] (some 2)),
        (.read, answers [.data 3 []] none),
        (.available .bufferPool, answers [.data 3 []] (some 2)),
        (.read, answers [.eof] none)]
    let upload : List (TransferSocketEvent × SocketAnswers) :=
      [(.layers, sends []), (.write, sends []), (.setActive, sends [7, 8]),
        (.write, sends []), (.available .reader, sends [])]
    (∃ effects connection,
      dataConnectionMachine.ReachesWithin EofStays download effects
        connection ∧
      connection.socket.endReason = .successful ∧
      handedBytes effects =
        receivedBytes
          (effects.takeWhile fun effect => effect ≠ .endOfFile) ∧
      handedBytes effects = [1, 2, 3]) ∧
    ∃ effects connection,
      dataConnectionMachine.ReachesWithin EofStays upload effects
        connection ∧
      connection.socket.endReason = .successful ∧
      sentBytes effects = fetchedBytes effects ∧ sentBytes effects = [7, 8] := by
  intro answers sends download upload
  have hdownload :
      dataConnectionMachine.exec (fun connection _ => connection.eof = false)
        ⟨⟨.download, false, 1, .none, false, false, none, 0⟩, false, false⟩
        download =
        some
          (⟨⟨.download, true, 0, .successful, false, false, none, 0⟩, true,
            false⟩,
            [.received 0 [1, 2], .handed [1, 2], .received 0 [3], .endOfFile,
              .handed [3], .finalized .ok, .transferEnd]) := by
    decide +kernel
  have hupload :
      dataConnectionMachine.exec (fun connection _ => connection.eof = false)
        ⟨⟨.upload, false, 1, .none, false, false, none, 0⟩, false, false⟩
        upload =
        some
          (⟨⟨.upload, true, 0, .successful, false, false, some ⟨[], 0⟩, 0⟩,
            false, false⟩,
            [.fetched [7, 8], .sent 0 [7], .sent 0 [8], .fetched [],
              .transferEnd]) := by
    decide +kernel
  have hreceived := eofStays_of_exec hdownload
  have hsent := eofStays_of_exec hupload
  exact ⟨⟨_, _, hreceived, rfl,
      ((data_connection_integrity hreceived).1 rfl rfl).1, rfl⟩,
    _, _, hsent, rfl, (data_connection_integrity hsent).2.1 rfl rfl, rfl⟩

end TabFtp
