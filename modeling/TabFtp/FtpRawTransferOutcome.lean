import TabFtp.FtpRawTransferRuns

/-!
# What a raw transfer ends with
-/

namespace TabFtp

open LabelledRuns

variable {Verb : Type}


namespace RawTransferRun

variable {run : RawTransferRun Verb} {events : List (RawTransferEvent Verb)}

structure Sound (run : RawTransferRun Verb)
    (events : List (RawTransferEvent Verb)) : Prop where
  lockstep : run.finished = none → run.Lockstep events
  going : run.finished = none → ∀ res, .ended res ∉ events
  truthful : EndsTruthfully run events

end RawTransferRun

theorem TransferAccepted.append
    {events : List (RawTransferEvent Verb)}
    (haccepted : TransferAccepted events)
    (more : List (RawTransferEvent Verb)) :
    TransferAccepted (events ++ more) := by
  obtain ⟨verb, code, hcode, hmem⟩ := haccepted
  exact ⟨verb, code, hcode, List.mem_append_left _ hmem⟩

namespace RawTransferRun

variable {run : RawTransferRun Verb} {events : List (RawTransferEvent Verb)}

theorem Sound.of_lockstep
    (hlockstep : run.Lockstep events)
    (hgoing : ∀ res, .ended res ∉ events) : run.Sound events where
  lockstep _ := hlockstep
  going _ := hgoing
  truthful res hmem := absurd hmem (hgoing res)

theorem Sound.reset
    (hgoing : ∀ res, .ended res ∉ events) {errorCode : Reply}
    (hcode : errorCode.has Reply.error = true ∨
      errorCode = Reply.ok ∧ TransferAccepted events ∧
        run.transferSocket = some .successful) :
    (run.resetOperation errorCode).1.Sound
      (events ++ (run.resetOperation errorCode).2) where
  lockstep := nofun
  going := nofun
  truthful := by
    intro res hmem
    rcases List.mem_append.mp hmem with hold | hnew
    · exact absurd hold (hgoing res)
    · cases List.mem_singleton.mp hnew
      rcases hcode with hfails | ⟨hok, haccepted, hsocket⟩
      · exact Or.inl hfails
      · exact Or.inr ⟨hok, haccepted.append _, hsocket⟩

theorem not_ended_append
    (hgoing : ∀ res, .ended res ∉ events)
    {event : RawTransferEvent Verb} (hevent : ∀ res, event ≠ .ended res) :
    ∀ res, .ended res ∉ events ++ [event] := by
  intro res hmem
  rcases List.mem_append.mp hmem with hold | hnew
  · exact hgoing res hold
  · exact hevent res (List.mem_singleton.mp hnew).symm

/-! ### Replies -/

/-- What has to hold of a run before an operation gets a reply, so that it
is in lockstep if it goes on. -/
structure Receives (run : RawTransferRun Verb)
    (events : List (RawTransferEvent Verb)) (code : ℕ) : Prop where
  single : run.awaiting.length ≤ 1
  resolving : run.resolving = false
  ended : run.op.opState = .waittransferpre ∨
      run.op.opState = .waittransfer →
    run.op.transferEndReason = .successful →
      run.transferSocket = some .successful
  accepted : run.op.opState = .waittransferpre ∨
      run.op.opState = .waittransfer ∨ run.op.opState = .transfer ∨
      run.op.opState = .waitfinish →
    code = 2 ∨ code = 3 → TransferAccepted events
  awaiting : ∀ following, run.op.opState.Follows code following →
    ∀ command ∈ run.awaiting,
      following.Awaits command ∧ ¬ following.Writes

theorem Receives.lockstep {code : ℕ} (hrun : run.Receives events code)
    {parsed : RawTransferParsed Verb}
    (hfollows : run.op.opState.Follows code parsed.op.opState)
    (hreason :
      parsed.op.transferEndReason = run.op.transferEndReason) :
    Lockstep
      { run with
        op := parsed.op
        parameters := parsed.parameters
        sending := true } events where
  awaiting := fun command hmem =>
    (hrun.awaiting _ hfollows command hmem).1
  single := hrun.single
  sending := by
    intro _ hwrites
    cases hawaiting : run.awaiting with
    | nil => rfl
    | cons command rest =>
        have hmem : command ∈ run.awaiting := by simp [hawaiting]
        exact absurd hwrites (hrun.awaiting _ hfollows command hmem).2
  resolving := by
    intro hresolving
    rw [hrun.resolving] at hresolving
    cases hresolving
  ended := by
    intro hstate hsuccessful
    rw [hreason] at hsuccessful
    rcases hstate with hstate | hstate
    · rw [hstate] at hfollows
      cases hbefore : run.op.opState <;> rw [hbefore] at hfollows <;>
        exact hfollows.elim
    · rw [hstate] at hfollows
      cases hbefore : run.op.opState with
      | waittransferpre => exact hrun.ended (Or.inl hbefore) hsuccessful
      | init | type | portPasv | rest | transfer | waitfinish
      | waittransfer | waitsocket =>
          rw [hbefore] at hfollows
          exact hfollows.elim
  accepted := by
    intro hstate
    rw [hstate] at hfollows
    cases hbefore : run.op.opState with
    | transfer =>
        rw [hbefore] at hfollows
        exact hrun.accepted (by simp [hbefore]) hfollows
    | waitfinish =>
        rw [hbefore] at hfollows
        exact hrun.accepted (by simp [hbefore]) hfollows
    | init | type | portPasv | rest | waittransferpre | waittransfer
    | waitsocket =>
        rw [hbefore] at hfollows
        exact hfollows.elim

theorem Receives.handReply {code : ℕ} (hrun : run.Receives events code)
    (hgoing : ∀ res, .ended res ∉ events) (env : RawTransferEnv) :
    (run.handReply code env).1.Sound
      (events ++ (run.handReply code env).2) := by
  unfold RawTransferRun.handReply
  have hparses := @RawTransfer.parseResponse_parses Verb run.op
    run.parameters env code
  cases hparses with
  | fails hresult _ =>
      simp only [hresult]
      exact Sound.reset hgoing (Or.inl RawTransfer.error_fails)
  | succeeds hresult _ hstate hcode hreason =>
      simp only [hresult]
      have haccepted : TransferAccepted events := by
        apply hrun.accepted _ hcode
        rcases hstate with hstate | hstate <;> simp [hstate]
      exact Sound.reset hgoing
        (Or.inr ⟨rfl, haccepted, hrun.ended hstate hreason⟩)
  | goesOn hresult _ hfollows hjob _ =>
      have hreason := RawTransfer.job_transferEndReason hjob
      simp only [hresult, if_true, List.append_nil]
      exact .of_lockstep (hrun.lockstep hfollows hreason) hgoing

theorem Lockstep.receives_final {code : ℕ}
    (hlockstep : run.Lockstep events)
    {command : RawTransferCommand Verb}
    {awaiting : List (RawTransferCommand Verb)}
    (hawaiting : run.awaiting = command :: awaiting) :
    Receives { run with awaiting := awaiting }
      (events ++ [.replied command code]) code := by
  have hsingle := hlockstep.single
  rw [hawaiting] at hsingle
  have hempty : awaiting = [] := by
    cases awaiting with
    | nil => rfl
    | cons next rest => simp at hsingle
  have hawaits : run.op.opState.Awaits command :=
    hlockstep.awaiting command (by simp [hawaiting])
  constructor
  · simp [hempty]
  · by_contra hresolving
    have hnone := (hlockstep.resolving (by simpa using hresolving)).2.1
    rw [hawaiting] at hnone
    cases hnone
  · exact hlockstep.ended
  · intro hstate hcode
    cases command with
    | transfer verb => exact ⟨verb, code, hcode, by simp⟩
    | type | pasv | epsv | port | eprt | rest =>
        rcases hstate with hstate | hstate | hstate | hstate <;>
        · dsimp only at hstate
          rw [hstate] at hawaits
          exact hawaits.elim
  · intro following _ other hmem
    dsimp only at hmem
    rw [hempty] at hmem
    cases hmem

theorem Lockstep.receives_preliminary
    (hlockstep : run.Lockstep events) {verb : Verb}
    (hhead : run.awaiting.head? = some (.transfer verb)) :
    run.Receives (events ++ [.preliminary]) 1 := by
  have hmem : .transfer verb ∈ run.awaiting := List.mem_of_head? hhead
  have hawaits := hlockstep.awaiting _ hmem
  constructor
  · exact hlockstep.single
  · by_contra hresolving
    have hnone := (hlockstep.resolving (by simpa using hresolving)).2.1
    rw [hnone] at hmem
    cases hmem
  · exact hlockstep.ended
  · intro _ hcode
    omega
  · intro following hfollows command hcommand
    have hsame : command = .transfer verb := by
      have hlength := hlockstep.single
      cases hlist : run.awaiting with
      | nil => simp [hlist] at hmem
      | cons first rest =>
          cases rest with
          | nil =>
              rw [hlist] at hhead hcommand
              rw [List.mem_singleton.mp hcommand]
              exact Option.some.inj hhead
          | cons next rest => simp [hlist] at hlength
    rw [hsame]
    cases hstate : run.op.opState <;> rw [hstate] at hawaits hfollows <;>
      cases following <;>
      first
        | exact hawaits.elim
        | exact hfollows.elim
        | exact ⟨trivial, id⟩
        | (simp [RawTransferState.Follows] at hfollows)

theorem Sound.parseResponse
    (hsound : run.Sound events) (hfinished : run.finished = none)
    (code : ℕ) (env : RawTransferEnv)
    (hallowed : run.PreliminaryToTransfer (.reply code env)) :
    (run.parseResponse code env).1.Sound
      (events ++ (run.parseResponse code env).2) := by
  have hlockstep := hsound.lockstep hfinished
  have hgoing := hsound.going hfinished
  unfold RawTransferRun.parseResponse
  by_cases hfirst : code = 1
  · subst hfirst
    obtain ⟨verb, hhead⟩ := hallowed env rfl
    have hreceives := hlockstep.receives_preliminary hhead
    simp only [if_true]
    rw [← List.singleton_append, ← List.append_assoc]
    exact hreceives.handReply (not_ended_append hgoing nofun) env
  · rw [if_neg hfirst]
    cases hawaiting : run.awaiting with
    | nil =>
        rw [List.append_nil]
        exact hsound
    | cons command awaiting =>
        have hreceives := @Lockstep.receives_final _ _ _ code hlockstep
          _ _ hawaiting
        simp only
        rw [← List.singleton_append, ← List.append_assoc]
        exact hreceives.handReply (not_ended_append hgoing nofun) env

/-! ### Commands -/

theorem Lockstep.append
    (hlockstep : run.Lockstep events)
    (more : List (RawTransferEvent Verb)) :
    run.Lockstep (events ++ more) where
  awaiting := hlockstep.awaiting
  single := hlockstep.single
  sending := hlockstep.sending
  resolving := hlockstep.resolving
  ended := hlockstep.ended
  accepted hstate := (hlockstep.accepted hstate).append more

theorem Lockstep.written
    (hlockstep : run.Lockstep events) (hsending : run.sending = true)
    {command : RawTransferCommand Verb}
    (hcommand : run.op.Writes command)
    {op : RawTransfer Verb} (hstate : op.opState = run.op.opState)
    (parameters : TransferParameters) :
    Lockstep
      { run with
        op, parameters
        awaiting := run.awaiting ++ [command]
        sending := false
        resolving := false } events := by
  have hwrites : run.op.opState.Writes := hcommand.writes
  have hnone : run.awaiting = [] := hlockstep.sending hsending hwrites
  constructor
  · intro other hmem
    dsimp only at hmem ⊢
    rw [hnone] at hmem
    cases List.mem_singleton.mp hmem
    rw [hstate]
    exact hcommand.awaits
  · simp [hnone]
  · nofun
  · nofun
  · intro hended
    dsimp only at hended
    rw [hstate] at hended
    rcases hended with hended | hended <;>
    · rw [hended] at hwrites
      exact hwrites.elim
  · intro hsocket
    dsimp only at hsocket
    rw [hstate] at hsocket
    rw [hsocket] at hwrites
    exact hwrites.elim

theorem Lockstep.waits
    (hlockstep : run.Lockstep events) {op : RawTransfer Verb}
    (hstate : op.opState = run.op.opState)
    (hreason : op.transferEndReason = run.op.transferEndReason)
    (parameters : TransferParameters) {resolving : Bool}
    (hresolving : resolving = true →
      run.op.opState = .portPasv ∧ run.awaiting = []) :
    Lockstep
      { run with op, parameters, resolving, sending := false } events where
  awaiting := by
    dsimp only
    rw [hstate]
    exact hlockstep.awaiting
  single := hlockstep.single
  sending := nofun
  resolving := by
    intro hasks
    dsimp only
    rw [hstate]
    exact ⟨(hresolving hasks).1, (hresolving hasks).2, rfl⟩
  ended := by
    dsimp only
    rw [hstate, hreason]
    exact hlockstep.ended
  accepted := by
    dsimp only
    rw [hstate]
    exact hlockstep.accepted

theorem Lockstep.starts
    (hlockstep : run.Lockstep events) (hsending : run.sending = true)
    (hinit : run.op.opState = .init) {op : RawTransfer Verb}
    (hbegins : run.op.Begins run.parameters op.opState)
    (parameters : TransferParameters) :
    Lockstep
      { run with op, parameters, resolving := false } events := by
  have hnone : run.awaiting = [] := by
    apply hlockstep.sending hsending
    rw [hinit]
    exact trivial
  constructor
  · intro command hmem
    dsimp only at hmem
    rw [hnone] at hmem
    cases hmem
  · exact hlockstep.single
  · intro _ _
    exact hnone
  · nofun
  · intro hended
    dsimp only at hended
    rcases hended with hended | hended <;>
    · rw [hended] at hbegins
      exact hbegins.elim
  · intro hsocket
    dsimp only at hsocket
    rw [hsocket] at hbegins
    exact hbegins.elim

theorem fails_ne_continued {result : Reply}
    (hfails : result.has Reply.error = true) :
    result ≠ Reply.continued := by
  rintro rfl
  exact absurd hfails (by decide)

theorem fails_ne_wouldblock {result : Reply}
    (hfails : result.has Reply.error = true) :
    result ≠ Reply.wouldblock := by
  rintro rfl
  exact absurd hfails (by decide)

theorem canceled_fails : Reply.canceled.has Reply.error = true := by
  decide

theorem wouldblock_ne_continued : Reply.wouldblock ≠ Reply.continued := by
  decide

theorem asks_writes_nothing {found : RawTransferEnv}
    (hasks : (found.hasTransferSocket && run.op.opState == .portPasv &&
      !run.op.bPasv && found.externalIPAddress == .wait) = true) :
    run.op.opState = .portPasv ∧
      (run.op.send run.parameters found).command = none := by
  simp only [Bool.and_eq_true, beq_iff_eq, Bool.not_eq_true'] at hasks
  obtain ⟨⟨⟨hsocket, hstate⟩, hactive⟩, hwait⟩ := hasks
  have hsend :
      run.op.send run.parameters found =
        ⟨run.op, run.parameters, none, Reply.wouldblock⟩ := by
    simp [RawTransfer.send, RawTransfer.sendPortPasv, hsocket, hstate,
      hactive, hwait]
  rw [hsend]
  exact ⟨hstate, rfl⟩

theorem not_ended_sent
    (hgoing : ∀ res, .ended res ∉ events)
    (command : Option (RawTransferCommand Verb)) (res : Reply) :
    .ended res ∉ events ++ command.toList.map RawTransferEvent.sent := by
  cases command with
  | none => simpa using hgoing res
  | some command => simpa using hgoing res

theorem Sound.sendNextCommand
    (hsound : run.Sound events) (hfinished : run.finished = none)
    (hsending : run.sending = true) (env : RawTransferEnv) :
    (run.sendNextCommand env).1.Sound
      (events ++ (run.sendNextCommand env).2) := by
  have hlockstep := hsound.lockstep hfinished
  have hgoing := hsound.going hfinished
  have hidle : run.resolving = false := by
    by_contra hresolving
    have hnot := (hlockstep.resolving (by simpa using hresolving)).2.2
    rw [hsending] at hnot
    cases hnot
  unfold RawTransferRun.sendNextCommand
  by_cases hwaiting : run.asyncWaiting = true
  · rw [if_pos hwaiting, List.append_nil]
    exact .of_lockstep
      (hlockstep.waits rfl rfl _ (by simp [hidle])) hgoing
  · rw [if_neg hwaiting]
    generalize hfound : ({ env with
      hasTransferSocket := run.transferSocket.isSome } :
        RawTransferEnv) = found
    have hsocket :
        run.transferSocket.isSome = found.hasTransferSocket := by
      rw [← hfound]
    have hquiet := @asks_writes_nothing Verb run found
    have hsends :=
      @RawTransfer.send_sends Verb run.op run.parameters found
    simp only [hsocket, hidle, Bool.false_or]
    generalize (found.hasTransferSocket &&
      run.op.opState == .portPasv && !run.op.bPasv &&
        found.externalIPAddress == .wait) = asks at *
    generalize run.op.send run.parameters found = sent at *
    have hgoing' := not_ended_sent hgoing sent.command
    cases hsends with
    | fails hresult hnone _ =>
        rw [if_neg (fails_ne_continued hresult),
          if_neg (fails_ne_wouldblock hresult), ← List.append_assoc]
        exact Sound.reset hgoing' (Or.inl hresult)
    | waits hresult hnone _ hstate hjob =>
        have hreason := RawTransfer.job_transferEndReason hjob
        have hasking : asks = true →
            run.op.opState = .portPasv ∧ run.awaiting = [] := by
          intro hasks
          have hstate' := (hquiet hasks).1
          have hwrites : run.op.opState.Writes := by
            rw [hstate']
            exact trivial
          exact ⟨hstate', hlockstep.sending hsending hwrites⟩
        simp only [hresult, hnone, Option.toList, List.map_nil,
          List.append_nil, if_neg wouldblock_ne_continued, if_true]
        exact .of_lockstep
          (hlockstep.waits hstate hreason _ hasking) hgoing
    | writes command hresult hsome hwrites _ hstate _ =>
        have hnot : asks = false := by
          by_contra hasks
          have hnone := (hquiet (by simpa using hasks)).2
          rw [hsome] at hnone
          cases hnone
        rw [hsome] at hgoing'
        simp only [hresult, hsome, Option.toList, hnot,
          if_neg wouldblock_ne_continued, if_true]
        exact .of_lockstep
          ((hlockstep.written hsending hwrites hstate _).append _)
          hgoing'
    | starts hresult hnone hinit _ hbegins _ =>
        have hnot : asks = false := by
          by_contra hasks
          have hstate' := (hquiet (by simpa using hasks)).1
          rw [hinit] at hstate'
          cases hstate'
        simp only [hresult, hnone, Option.toList, List.map_nil,
          List.append_nil, hnot, if_true]
        exact .of_lockstep
          (hlockstep.starts hsending hinit hbegins _) hgoing

/-! ### The data connection -/

theorem Lockstep.endTransferSocket
    (hlockstep : run.Lockstep events) (reason : TransferEndReason) :
    (run.endTransferSocket reason).Lockstep events := by
  unfold RawTransferRun.endTransferSocket
  by_cases hopen : run.transferSocket = some .none
  · rw [if_pos hopen]
    have hended : run.op.opState = .waittransferpre ∨
        run.op.opState = .waittransfer →
        run.op.transferEndReason ≠ .successful := by
      intro hstate hsuccessful
      have hsocket := hlockstep.ended hstate hsuccessful
      rw [hopen] at hsocket
      cases hsocket
    exact
      { hlockstep with
        ended := fun hstate hsuccessful =>
          absurd hsuccessful (hended hstate) }
  · rw [if_neg hopen]
    exact hlockstep

theorem Lockstep.notes
    (hlockstep : run.Lockstep events) {op : RawTransfer Verb}
    (hstate : op.opState = run.op.opState)
    (hreason : op.transferEndReason = .successful →
      run.op.transferEndReason = .successful) :
    Lockstep { run with op } events := by
  constructor
  · dsimp only
    rw [hstate]
    exact hlockstep.awaiting
  · exact hlockstep.single
  · dsimp only
    rw [hstate]
    exact hlockstep.sending
  · dsimp only
    rw [hstate]
    exact hlockstep.resolving
  · intro hended hsuccessful
    dsimp only at hended
    rw [hstate] at hended
    exact hlockstep.ended hended (hreason hsuccessful)
  · dsimp only
    rw [hstate]
    exact hlockstep.accepted

theorem Lockstep.moves
    (hlockstep : run.Lockstep events) (hidle : run.sending = false)
    {reason : TransferEndReason}
    (hsocket : run.transferSocket = some reason) {op : RawTransfer Verb}
    (hstate :
      run.op.opState = .transfer ∧ op.opState = .waittransferpre ∨
        run.op.opState = .waitfinish ∧ op.opState = .waittransfer)
    (hreason :
      op.transferEndReason = .successful → reason = .successful) :
    Lockstep { run with op } events := by
  constructor
  · intro command hmem
    have hawaits := hlockstep.awaiting command hmem
    rcases hstate with ⟨hbefore, hafter⟩ | ⟨hbefore, hafter⟩ <;>
    · rw [hbefore] at hawaits
      dsimp only
      rw [hafter]
      cases command <;> exact hawaits
  · exact hlockstep.single
  · intro hsending
    rw [hidle] at hsending
    cases hsending
  · intro hresolving
    have hpasv := (hlockstep.resolving hresolving).1
    rcases hstate with hstate | hstate <;> rw [hstate.1] at hpasv <;>
      cases hpasv
  · intro _ hsuccessful
    rw [hreason hsuccessful] at hsocket
    exact hsocket
  · intro hafter
    rcases hstate with hstate | hstate <;>
    · dsimp only at hafter
      rw [hstate.2] at hafter
      cases hafter

theorem Sound.transferEnd
    (hsound : run.Sound events) (hfinished : run.finished = none)
    (hidle : run.sending = false) :
    run.transferEnd.1.Sound (events ++ run.transferEnd.2) := by
  have hlockstep := hsound.lockstep hfinished
  have hgoing := hsound.going hfinished
  unfold RawTransferRun.transferEnd
  cases hsocket : run.transferSocket with
  | none =>
      simp only [List.append_nil]
      exact hsound
  | some reason =>
      have hends := @RawTransfer.transferEnd_ends Verb run.op reason
      cases hends with
      | fails errorCode hcode hfails =>
          simp only [hcode]
          exact Sound.reset hgoing (Or.inl hfails)
      | succeeds hcode hstate hreason =>
          simp only [hcode]
          rw [← hsocket]
          have hsuccessful : run.transferSocket = some .successful := by
            rw [hsocket, hreason]
          exact Sound.reset hgoing
            (Or.inr ⟨rfl, hlockstep.accepted hstate, hsuccessful⟩)
      | ignored hcode hstate hreason =>
          simp only [hcode, List.append_nil]
          rw [← hsocket]
          exact .of_lockstep (hlockstep.notes hstate hreason) hgoing
      | moves hcode hstate hreason =>
          simp only [hcode, List.append_nil]
          rw [← hsocket]
          exact .of_lockstep
            (hlockstep.moves hidle hsocket hstate hreason) hgoing

/-! ### Steps -/

theorem Lockstep.externalIPAddress
    (hlockstep : run.Lockstep events) (hresolving : run.resolving = true) :
    Lockstep { run with resolving := false, sending := true } events where
  awaiting := hlockstep.awaiting
  single := hlockstep.single
  sending _ _ := (hlockstep.resolving hresolving).2.1
  resolving := nofun
  ended := hlockstep.ended
  accepted := hlockstep.accepted

theorem Lockstep.setAsyncWaiting
    (hlockstep : run.Lockstep events) (asyncWaiting : Bool) :
    Lockstep { run with asyncWaiting } events where
  awaiting := hlockstep.awaiting
  single := hlockstep.single
  sending := hlockstep.sending
  resolving := hlockstep.resolving
  ended := hlockstep.ended
  accepted := hlockstep.accepted

/-- One step keeps what a success stands for. -/
theorem Sound.step
    (hsound : run.Sound events) {input : RawTransferInput}
    (hallowed : run.PreliminaryToTransfer input)
    {following : RawTransferRun Verb}
    {answer : List (RawTransferEvent Verb)}
    (hstep : run.step input = some (following, answer)) :
    following.Sound (events ++ answer) := by
  unfold RawTransferRun.step at hstep
  by_cases hfinished : run.finished = none
  · rw [if_neg (not_not.mpr hfinished)] at hstep
    have hlockstep := hsound.lockstep hfinished
    have hgoing := hsound.going hfinished
    cases input with
    | sendNextCommand env =>
        by_cases hsending : run.sending = true
        · simp only [hsending, if_true] at hstep
          have hnext := hsound.sendNextCommand hfinished hsending env
          rw [Option.some.inj hstep] at hnext
          exact hnext
        · simp only [hsending] at hstep
          cases hstep
    | reply code env =>
        by_cases hsending : run.sending = true
        · simp only [hsending, if_true] at hstep
          cases hstep
        · have hnext := hsound.parseResponse hfinished code env hallowed
          simp only [if_neg hsending] at hstep
          rw [Option.some.inj hstep] at hnext
          exact hnext
    | transferSocketEnds reason =>
        cases hstep
        rw [List.append_nil]
        apply Sound.of_lockstep (hlockstep.endTransferSocket reason)
        exact hgoing
    | transferEnd =>
        by_cases hsending : run.sending = true
        · simp only [hsending, if_true] at hstep
          cases hstep
        · have hidle : run.sending = false := by simpa using hsending
          have hnext := hsound.transferEnd hfinished hidle
          simp only [if_neg hsending] at hstep
          rw [Option.some.inj hstep] at hnext
          exact hnext
    | externalIPAddress =>
        by_cases hblocked : (run.sending || !run.resolving) = true
        · simp only [hblocked, if_true] at hstep
          cases hstep
        · have hresolving : run.resolving = true := by
            simp only [Bool.or_eq_true, not_or] at hblocked
            simpa using hblocked.2
          simp only [hblocked] at hstep
          cases hstep
          rw [List.append_nil]
          exact .of_lockstep (hlockstep.externalIPAddress hresolving) hgoing
    | asyncRequest =>
        by_cases hsome : run.transferSocket.isSome = true
        · simp only [hsome, if_true] at hstep
          cases hstep
          rw [List.append_nil]
          exact .of_lockstep (hlockstep.setAsyncWaiting true) hgoing
        · simp only [hsome] at hstep
          cases hstep
    | asyncReply allow =>
        by_cases hblocked : (run.sending || !run.asyncWaiting) = true
        · simp only [hblocked, if_true] at hstep
          cases hstep
        · simp only [hblocked] at hstep
          cases allow with
          | true =>
              cases hstep
              rw [List.append_nil]
              exact .of_lockstep (hlockstep.setAsyncWaiting false) hgoing
          | false =>
              cases hstep
              exact Sound.reset hgoing (Or.inl canceled_fails)
    | abort errorCode =>
        by_cases hfails : errorCode.has Reply.error = true
        · simp only [hfails, if_true] at hstep
          cases hstep
          exact Sound.reset hgoing (Or.inl hfails)
        · simp only [hfails] at hstep
          cases hstep
  · rw [if_pos hfinished] at hstep
    cases hstep

theorem start_sound (cmd : Verb) (binary : Bool) (resumeOffset : ℤ)
    (parameters : TransferParameters) :
    (start (.create cmd binary resumeOffset) parameters).Sound [] := by
  apply Sound.of_lockstep
  · constructor
    · nofun
    · exact Nat.zero_le 1
    · intro _ _
      rfl
    · nofun
    · intro hstate
      rcases hstate with hstate | hstate <;> cases hstate
    · nofun
  · nofun

end RawTransferRun

/-! ## Both connections -/

/-- A raw transfer ends with `FZ_REPLY_OK` only after a final positive reply
to the transfer command and a successful end of the data connection, provided
that the server sends preliminary replies to no other command. -/
theorem raw_transfer_ends_truthfully
    {inputs : List RawTransferInput}
    {events : List (RawTransferEvent Verb)} {run : RawTransferRun Verb}
    (hreach : (rawTransferMachine Verb).ReachesWithin
      RawTransferRun.PreliminaryToTransfer inputs events run) :
    EndsTruthfully run events := by
  have hsound : run.Sound events := by
    apply hreach.invariant fun events run => run.Sound events
    · rintro _ ⟨cmd, binary, resumeOffset, parameters, rfl⟩
      exact RawTransferRun.start_sound cmd binary resumeOffset parameters
    · intro _ _ _ _ _ hsound hallowed hstep
      exact hsound.step hallowed hstep
  exact hsound.truthful

def RawTransferEnv.fallback : RawTransferEnv where
  hasTransferSocket := true
  proxyLayer := false
  pasvMode := .passive
  usePasv := true
  allowTransfermodeFallback := true
  ipv6 := false
  epsvCommand := .unknown
  externalIPAddress := .found "192.0.2.1"
  setupActiveTransfer _ := "192,0,2,1,4,1".toList
  setupPassiveTransfer _ _ := true
  parseEpsv := none
  parsePasv _ := some ("192.0.2.2".toList, 1025)
  sendsCommand := true

/-- A raw transfer for a download in the type that the server has. -/
def RawTransferRun.download : RawTransferRun String :=
  .start (.create "RETR" true 0) ⟨1, false⟩

theorem download_reaches
    (allowed : RawTransferRun String → RawTransferInput → Prop) :
    (rawTransferMachine String).ReachesWithin allowed [] [] .download :=
  .start ⟨"RETR", true, 0, ⟨1, false⟩, rfl⟩

instance (command : Option (RawTransferCommand Verb)) :
    Decidable (∃ verb, command = some (.transfer verb)) :=
  match command with
  | some (.transfer verb) => isTrue ⟨verb, rfl⟩
  | some (.type _) | some .pasv | some .epsv | some (.port _)
  | some (.eprt _) | some (.rest _) | none => isFalse nofun

theorem preliminaryToTransfer_iff {run : RawTransferRun Verb}
    {input : RawTransferInput} :
    (match input with
      | .reply code _ =>
          code = 1 → ∃ verb, run.awaiting.head? = some (.transfer verb)
      | _ => True) ↔ run.PreliminaryToTransfer input := by
  unfold RawTransferRun.PreliminaryToTransfer
  cases input <;> simp

instance (run : RawTransferRun Verb) (input : RawTransferInput) :
    Decidable (run.PreliminaryToTransfer input) :=
  @decidable_of_iff _ _ preliminaryToTransfer_iff
    (match input with
    | .reply _ _ => inferInstance
    | .sendNextCommand _ | .transferSocketEnds _ | .transferEnd
    | .externalIPAddress | .asyncRequest | .asyncReply _ | .abort _ =>
        isTrue trivial)

/-- A download whose data connection ends between the two replies. -/
theorem raw_transfer_ends_truthfully_retr :
    ∃ inputs events run,
      (rawTransferMachine String).ReachesWithin
        RawTransferRun.PreliminaryToTransfer inputs events run ∧
      .ended Reply.ok ∈ events ∧ EndsTruthfully run events := by
  let env := RawTransferEnv.fallback
  let inputs : List RawTransferInput :=
    [.sendNextCommand env, .sendNextCommand env,
      .reply 2 env, .sendNextCommand env,
      .reply 1 env, .sendNextCommand env,
      .transferSocketEnds .successful, .transferEnd, .reply 2 env]
  let events : List (RawTransferEvent String) :=
    [.sent .pasv, .replied .pasv 2, .sent (.transfer "RETR"),
      .preliminary, .replied (.transfer "RETR") 2, .ended Reply.ok]
  let run : RawTransferRun String :=
    { op :=
        { RawTransfer.create "RETR" true 0 with
          opState := .waittransfer
          bTriedPasv := true
          host := "192.0.2.2".toList
          port := 1025
          transferCommandSent := true }
      parameters := ⟨1, false⟩
      awaiting := []
      transferSocket := some .successful
      sending := false
      resolving := false
      asyncWaiting := false
      finished := some Reply.ok }
  have hexec :
      (rawTransferMachine String).exec
        RawTransferRun.PreliminaryToTransfer .download inputs =
          some (run, events) := by
    decide +kernel
  have hreach :=
    (download_reaches RawTransferRun.PreliminaryToTransfer).exec hexec
  exact ⟨inputs, events, run, hreach, by simp [events],
    raw_transfer_ends_truthfully hreach⟩

/-- A preliminary reply to `PASV` makes the operation send `PORT` while the
final reply is still to come.  From then on it takes every reply for the
reply to the command after it. -/
theorem raw_transfer_ends_untruthfully :
    ∃ inputs events run,
      (rawTransferMachine String).Reaches inputs events run ∧
      ¬ EndsTruthfully run events := by
  let env := RawTransferEnv.fallback
  let inputs : List RawTransferInput :=
    [.sendNextCommand env, .sendNextCommand env,
      .reply 1 env, .sendNextCommand env,
      .reply 2 env, .sendNextCommand env,
      .reply 2 env, .sendNextCommand env,
      .transferSocketEnds .successful, .transferEnd]
  let events : List (RawTransferEvent String) :=
    [.sent .pasv, .preliminary,
      .sent (.port "192,0,2,1,4,1".toList), .replied .pasv 2,
      .sent (.transfer "RETR"),
      .replied (.port "192,0,2,1,4,1".toList) 2, .ended Reply.ok]
  let run : RawTransferRun String :=
    { op :=
        { RawTransfer.create "RETR" true 0 with
          opState := .waitsocket
          bPasv := false
          bTriedPasv := true
          bTriedActive := true
          transferCommandSent := true }
      parameters := ⟨1, false⟩
      awaiting := [.transfer "RETR"]
      transferSocket := some .successful
      sending := false
      resolving := false
      asyncWaiting := false
      finished := some Reply.ok }
  have hexec :
      (rawTransferMachine String).exec (fun _ _ => True) .download inputs =
        some (run, events) := by
    decide +kernel
  have hreach := (download_reaches fun _ _ => True).exec hexec
  have huntruthful : ¬ EndsTruthfully run events := by
    intro htruthful
    have hends := htruthful Reply.ok (by simp [events])
    rcases hends with hfails | ⟨_, ⟨verb, code, _, hmem⟩, _⟩
    · exact absurd hfails (by decide)
    · simp [events] at hmem
  exact ⟨inputs, events, run, hreach, huntruthful⟩

end TabFtp
