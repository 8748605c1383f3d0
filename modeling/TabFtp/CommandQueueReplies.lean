import TabFtp.CommandQueue

/-!
# Replies and the commands they belong to

Between the operations the front of the queue has been executed, and the
notification of its call is the only one to come.  This fails once a command
is executed while the notification of an earlier call is on its way.
-/

namespace TabFtp

namespace CommandQueue

variable {queue final : CommandQueue} {execution : ℕ}

def outstanding (queue : CommandQueue) : List ℕ :=
  queue.notifications.map OperationNotification.execution ++
    queue.running.toList.map Operation.execution

/-- A reply has removed the command that has been executed last by the call
that the reply belongs to. -/
def Removal.Own (removal : Removal) : Prop :=
  ∀ execution, removal.cause = .reply execution →
    removal.entry.execution = some execution

def SameButList (queue final : CommandQueue) : Prop :=
  final = { queue with commandList := final.commandList }

theorem SameButList.refl (queue : CommandQueue) : queue.SameButList queue :=
  rfl

theorem SameButList.trans {last : CommandQueue}
    (hfirst : queue.SameButList final) (hsecond : final.SameButList last) :
    queue.SameButList last := by
  unfold SameButList at hfirst hsecond ⊢
  rw [hsecond, hfirst]

theorem SameButList.outstanding (hsame : queue.SameButList final) :
    final.outstanding = queue.outstanding := by
  rw [hsame]
  rfl

theorem sameButList_list (queue : CommandQueue) (list : List CommandInfo) :
    queue.SameButList { queue with commandList := list } := rfl

theorem sameButList_enqueue (queue : CommandQueue) (command : NewCommand) :
    queue.SameButList (queue.enqueue command) := by
  unfold enqueue
  split
  · exact .refl queue
  · rfl

theorem sameButList_enqueueAll (queue : CommandQueue)
    (commands : List NewCommand) :
    queue.SameButList (queue.enqueueAll commands) := by
  induction commands generalizing queue with
  | nil => exact .refl queue
  | cons command rest ih =>
      exact (sameButList_enqueue queue command).trans (ih _)

/-! ## Processing a reply -/

theorem own_failedConnect (entry : CommandInfo) :
    Removal.Own ⟨entry, .failedConnect⟩ := by
  intro execution hcause
  cases hcause

theorem own_cancel (entry : CommandInfo) : Removal.Own ⟨entry, .cancel⟩ := by
  intro execution hcause
  cases hcause

theorem own_reply {front : CommandInfo}
    (hfront : front.execution = some execution) :
    Removal.Own ⟨front, .reply execution⟩ := by
  intro other hcause
  cases hcause
  exact hfront

theorem finishFront_spec (queue : CommandQueue) {front : CommandInfo}
    (hfront : front.execution = some execution) (replyCode : Reply)
    (environment : Environment) :
    queue.SameButList
        (queue.finishFront front execution replyCode environment).1 ∧
      ∀ removal ∈ (queue.finishFront front execution replyCode environment).2,
        removal.Own := by
  have hown : ∀ removal ∈ [(⟨front, .reply execution⟩ : Removal)],
      removal.Own := by
    intro removal hremoval
    rw [List.mem_singleton.mp hremoval]
    exact own_reply hfront
  unfold finishFront
  split
  · refine ⟨?_, hown⟩
    have hpop : ∀ other : CommandQueue, queue.SameButList other →
        queue.SameButList other.popFront := fun other hother =>
      hother.trans rfl
    apply hpop
    split
    · exact sameButList_enqueueAll _ _
    · split
      · exact sameButList_enqueueAll _ _
      · exact sameButList_enqueueAll _ _
  · split
    · exact ⟨rfl, by simp⟩
    · split
      · refine ⟨(sameButList_list queue _).trans
          (sameButList_enqueueAll _ _), ?_⟩
        intro removal hremoval
        rcases List.mem_cons.mp hremoval with rfl | hpending
        · exact own_reply hfront
        · obtain ⟨entry, _, rfl⟩ := List.mem_map.mp hpending
          exact own_failedConnect entry
      · exact ⟨rfl, hown⟩

theorem processReply_spec (queue : CommandQueue)
    (hfront : ∀ entry, queue.commandList.head? = some entry →
      entry.execution = some execution)
    (replyCode : Reply) (commandId : Command) (environment : Environment) :
    queue.SameButList
        (queue.processReply execution replyCode commandId environment).1 ∧
      (∀ removal ∈
          (queue.processReply execution replyCode commandId environment).2.1,
        removal.Own) ∧
      ((queue.processReply execution replyCode commandId
          environment).2.2 = false →
        replyCode = Reply.wouldblock ∨ queue.commandList = []) := by
  unfold processReply
  split
  · rename_i hwouldblock
    exact ⟨.refl queue, by simp, fun _ => Or.inl hwouldblock⟩
  · split
    · rename_i hempty
      exact ⟨.refl queue, by simp, fun _ => Or.inr hempty⟩
    · rename_i front rest hlist
      have hown : front.execution = some execution :=
        hfront front (by rw [hlist]; rfl)
      split
      · have hreconnect : (⟨front.origin, front.command, true,
            front.execution⟩ : CommandInfo).execution = some execution := hown
        simp only
        split
        · exact ⟨rfl, by simp, by simp⟩
        · obtain ⟨hsame, hremovals⟩ := finishFront_spec
            { queue with
              commandList := { front with didReconnect := true } :: rest }
            hreconnect replyCode environment
          exact ⟨(sameButList_list queue _).trans hsame, hremovals, by simp⟩
      · obtain ⟨hsame, hremovals⟩ :=
          finishFront_spec queue hown replyCode environment
        exact ⟨hsame, hremovals, by simp⟩

/-! ## Executing commands -/

/-- The front of a queue that is not locked has been executed, and nothing is
outstanding but its call. -/
structure Matched (queue : CommandQueue) : Prop where
  front : queue.exclusiveLock = false →
    ∀ entry, queue.commandList.head? = some entry →
      ∃ execution, entry.execution = some execution ∧
        queue.outstanding = [execution]
  idle : queue.exclusiveLock = false → queue.commandList = [] →
    queue.running = none
  ended : ∀ notification ∈ queue.notifications,
    notification.replyCode ≠ Reply.wouldblock

theorem matched_of_locked (hlock : queue.exclusiveLock = true)
    (hended : ∀ notification ∈ queue.notifications,
      notification.replyCode ≠ Reply.wouldblock) : queue.Matched := by
  constructor
  · intro hunlocked
    rw [hlock] at hunlocked
    exact absurd hunlocked.symm Bool.false_ne_true
  · intro hunlocked
    rw [hlock] at hunlocked
    exact absurd hunlocked.symm Bool.false_ne_true
  · exact hended

theorem outstanding_eq_nil :
    queue.outstanding = [] ↔
      queue.notifications = [] ∧ queue.running = none := by
  unfold outstanding
  rw [List.append_eq_nil_iff, List.map_eq_nil_iff, List.map_eq_nil_iff]
  cases queue.running with
  | none => simp
  | some operation => simp

theorem executeCommands_spec (answers : List Answer)
    (hlock : queue.exclusiveLock = false) (hnone : queue.outstanding = [])
    {removals : List Removal}
    (hexecute : executeCommands answers queue = some (final, removals)) :
    final.Matched ∧ final.exclusiveLock = false ∧
      ∀ removal ∈ removals, removal.Own := by
  obtain ⟨hnotifications, hrunning⟩ := outstanding_eq_nil.mp hnone
  induction answers generalizing queue removals with
  | nil =>
      unfold executeCommands at hexecute
      split at hexecute
      · rename_i hlist _
        cases hexecute
        refine ⟨⟨?_, fun _ _ => hrunning, ?_⟩, hlock, by simp⟩
        · intro _ entry hentry
          rw [hlist] at hentry
          cases hentry
        · rw [hnotifications]
          simp
      · cases hexecute
      · cases hexecute
      · rename_i hanswers
        cases hanswers
  | cons answer later ih =>
      unfold executeCommands at hexecute
      split at hexecute
      · rename_i hanswers
        cases hanswers
      · cases hexecute
      · cases hexecute
      · rename_i front rest _ _ hlist hanswers
        cases hanswers
        have hfront : ∀ entry,
            (queue.execute front rest answer.reply).commandList.head? =
              some entry → entry.execution = some queue.nextExecution := by
          intro entry hentry
          cases hentry
          rfl
        obtain ⟨hsame, hown, _⟩ := processReply_spec
          (queue.execute front rest answer.reply) hfront answer.reply
          front.command answer.environment
        have hblocked : answer.reply = Reply.wouldblock →
            (queue.execute front rest answer.reply).processReply
              queue.nextExecution answer.reply front.command
              answer.environment =
              (queue.execute front rest answer.reply, [], false) := by
          intro hwouldblock
          unfold processReply
          rw [if_pos hwouldblock]
        simp only at hexecute
        generalize (queue.execute front rest answer.reply).processReply
          queue.nextExecution answer.reply front.command
          answer.environment = result at *
        obtain ⟨processed, first, again⟩ := result
        simp only at hexecute hsame hown hblocked
        split at hexecute
        · rename_i hwouldblock
          have hprocessed := hblocked hwouldblock
          split at hexecute
          · cases hexecute
            cases hprocessed
            refine ⟨⟨?_, ?_, ?_⟩, hlock, hown⟩
            · intro _ entry hentry
              refine ⟨_, hfront entry hentry, ?_⟩
              unfold outstanding execute
              simp [hnotifications, hwouldblock]
            · intro _ hempty
              cases hempty
            · unfold execute
              simp [hnotifications]
          · cases hexecute
        · rename_i hreply
          split at hexecute
          · cases hexecute
          · rename_i last more hlater
            cases hexecute
            have hsameRunning : (queue.execute front rest
                answer.reply).running = none := by
              unfold execute
              simp [hreply, hrunning]
            have hprocessedLock : processed.exclusiveLock = false := by
              rw [hsame]
              exact hlock
            have hprocessedNone : processed.outstanding = [] := by
              rw [hsame.outstanding]
              exact outstanding_eq_nil.mpr ⟨hnotifications, hsameRunning⟩
            obtain ⟨hnotifications', hrunning'⟩ :=
              outstanding_eq_nil.mp hprocessedNone
            obtain ⟨hmatched, hunlocked, hmore⟩ := ih hprocessedLock
              hprocessedNone hlater hnotifications' hrunning'
            refine ⟨hmatched, hunlocked, ?_⟩
            intro removal hremoval
            rcases List.mem_append.mp hremoval with hhead | htail
            · exact hown removal hhead
            · exact hmore removal htail

theorem Matched.grant (hmatched : queue.Matched) :
    queue.grantExclusiveEngineRequest.Matched := by
  unfold grantExclusiveEngineRequest
  split
  · exact hmatched
  · exact matched_of_locked rfl hmatched.ended

theorem processNextCommand_spec (hlock : queue.exclusiveLock = false)
    (hnone : queue.outstanding = []) {nextOperation : List NewCommand}
    {answers : List Answer} {removals : List Removal}
    (hprocess : queue.processNextCommand nextOperation answers =
      some (final, removals)) :
    final.Matched ∧ ∀ removal ∈ removals, removal.Own := by
  have hidle : queue.isBusy = false := by
    unfold isBusy
    rw [(outstanding_eq_nil.mp hnone).2]
    rfl
  unfold processNextCommand at hprocess
  rw [if_neg (by simp [hlock, hidle])] at hprocess
  simp only at hprocess
  have hsame : queue.SameButList
      (if queue.commandList = [] then queue.enqueueAll nextOperation
        else queue) := by
    split
    · exact sameButList_enqueueAll queue nextOperation
    · exact .refl queue
  generalize (if queue.commandList = [] then queue.enqueueAll nextOperation
    else queue) = started at *
  have hstartedLock : started.exclusiveLock = false := by
    rw [hsame]
    exact hlock
  have hstartedNone : started.outstanding = [] :=
    hsame.outstanding.trans hnone
  split at hprocess
  · cases hprocess
  · rename_i executed more hexecute
    obtain ⟨hmatched, _, hown⟩ :=
      executeCommands_spec answers hstartedLock hstartedNone hexecute
    split at hprocess
    · cases hprocess
      exact ⟨hmatched.grant, hown⟩
    · cases hprocess
      exact ⟨hmatched, hown⟩

theorem processNextCommand_blocked
    (hblocked : queue.exclusiveLock = true ∨ queue.isBusy = true)
    {nextOperation : List NewCommand} {answers : List Answer}
    {removals : List Removal}
    (hprocess : queue.processNextCommand nextOperation answers =
      some (final, removals)) : final = queue ∧ removals = [] := by
  unfold processNextCommand at hprocess
  rw [if_pos hblocked] at hprocess
  split at hprocess
  · cases hprocess
    exact ⟨rfl, rfl⟩
  · cases hprocess

/-! ## The operations -/

theorem Matched.processNextCommand (hmatched : queue.Matched)
    (hundelivered : queue.exclusiveLock = false → queue.running = none →
      queue.notifications = [])
    {nextOperation : List NewCommand} {answers : List Answer}
    {removals : List Removal}
    (hprocess : queue.processNextCommand nextOperation answers =
      some (final, removals)) :
    final.Matched ∧ ∀ removal ∈ removals, removal.Own := by
  by_cases hblocked : queue.exclusiveLock = true ∨ queue.isBusy = true
  · obtain ⟨rfl, rfl⟩ := processNextCommand_blocked hblocked hprocess
    exact ⟨hmatched, by simp⟩
  · obtain ⟨hlock, hidle⟩ := not_or.mp hblocked
    have hunlocked := Bool.eq_false_iff.mpr hlock
    have hrunning : queue.running = none := by
      unfold isBusy at hidle
      exact Option.not_isSome_iff_eq_none.mp hidle
    exact processNextCommand_spec hunlocked
      (outstanding_eq_nil.mpr ⟨hundelivered hunlocked hrunning, hrunning⟩)
      hprocess

theorem commandList_enqueue (queue : CommandQueue) (command : NewCommand)
    (hquit : queue.quit = false) :
    (queue.enqueue command).commandList = queue.commandList ++
      [⟨command.origin, command.command, false, none⟩] := by
  unfold enqueue
  rw [if_neg (by simp [hquit])]

theorem Matched.processCommand (hmatched : queue.Matched)
    (command : NewCommand)
    (hundelivered : queue.quit = false → queue.exclusiveLock = false →
      queue.commandList = [] → queue.notifications = [])
    {answers : List Answer} {removals : List Removal}
    (hprocess : queue.processCommand command answers =
      some (final, removals)) :
    final.Matched ∧ ∀ removal ∈ removals, removal.Own := by
  have hsame := sameButList_enqueue queue command
  unfold CommandQueue.processCommand at hprocess
  simp only at hprocess
  split at hprocess
  · rename_i hfirst
    obtain ⟨hlength, hquit⟩ := hfirst
    rw [commandList_enqueue queue command hquit, List.length_append] at hlength
    have hempty : queue.commandList = [] := by
      apply List.length_eq_zero_iff.mp
      simpa using hlength
    by_cases hlock : queue.exclusiveLock = true
    · have hlocked : (queue.enqueue command).exclusiveLock = true := by
        rw [hsame]
        exact hlock
      obtain ⟨rfl, rfl⟩ :=
        processNextCommand_blocked (Or.inl hlocked) hprocess
      refine ⟨matched_of_locked hlocked ?_, by simp⟩
      rw [hsame]
      exact hmatched.ended
    · have hunlocked := Bool.eq_false_iff.mpr hlock
      have hnone : queue.outstanding = [] := outstanding_eq_nil.mpr
        ⟨hundelivered hquit hunlocked hempty, hmatched.idle hunlocked hempty⟩
      apply processNextCommand_spec _ _ hprocess
      · rw [hsame]
        exact hunlocked
      · exact hsame.outstanding.trans hnone
  · rename_i hlater
    split at hprocess
    · cases hprocess
      refine ⟨?_, by simp⟩
      by_cases hquit : queue.quit = true
      · have heq : queue.enqueue command = queue := by
          unfold enqueue
          rw [if_pos hquit]
        rw [heq]
        exact hmatched
      · have hrunning := Bool.eq_false_iff.mpr hquit
        have hlist := commandList_enqueue queue command hrunning
        have hne : queue.commandList ≠ [] := by
          intro hempty
          apply hlater
          rw [hlist, hempty]
          exact ⟨rfl, hrunning⟩
        constructor
        · intro hunlocked entry hentry
          rw [hlist, List.head?_append_of_ne_nil _ hne] at hentry
          rw [hsame.outstanding]
          rw [hsame] at hunlocked
          exact hmatched.front hunlocked entry hentry
        · intro _ hempty
          rw [hlist] at hempty
          exact absurd hempty (by simp)
        · rw [hsame]
          exact hmatched.ended
    · cases hprocess

theorem Matched.cancel (hmatched : queue.Matched) :
    queue.cancel.1.Matched ∧ ∀ removal ∈ queue.cancel.2, removal.Own := by
  unfold CommandQueue.cancel
  split
  · exact ⟨hmatched, by simp⟩
  · rename_i hlock
    have hunlocked := Bool.eq_false_iff.mpr hlock
    split
    · exact ⟨hmatched, by simp⟩
    · rename_i front rest hlist
      have hrest : ∀ removal ∈ rest.map fun entry =>
          (⟨entry, .cancel⟩ : Removal), removal.Own := by
        intro removal hremoval
        obtain ⟨entry, _, rfl⟩ := List.mem_map.mp hremoval
        exact own_cancel entry
      simp only
      split
      · refine ⟨⟨?_, ?_, hmatched.ended⟩, hrest⟩
        · intro _ entry hentry
          apply hmatched.front hunlocked entry
          rw [hlist]
          exact hentry
        · intro _ hempty
          cases hempty
      · rename_i hidle
        refine ⟨⟨?_, ?_, hmatched.ended⟩, ?_⟩
        · intro _ entry hentry
          cases hentry
        · intro _ _
          exact Option.not_isSome_iff_eq_none.mp hidle
        · intro removal hremoval
          rcases List.mem_cons.mp hremoval with rfl | hlater
          · exact own_cancel front
          · exact hrest removal hlater

theorem Matched.resetOperation (hmatched : queue.Matched)
    {replyCode : Reply}
    (hreset : queue.resetOperation replyCode = some final) :
    final.Matched := by
  unfold CommandQueue.resetOperation at hreset
  split at hreset
  · cases hreset
  · rename_i operation hrunning
    split at hreset
    · cases hreset
    · rename_i hended
      cases hreset
      have hsame : outstanding
          { queue with
            running := none
            notifications := queue.notifications ++
              [⟨operation.execution, replyCode, operation.command⟩] } =
          queue.outstanding := by
        unfold outstanding
        rw [hrunning]
        simp
      constructor
      · intro hunlocked entry hentry
        rw [hsame]
        exact hmatched.front hunlocked entry hentry
      · exact fun _ _ => rfl
      · intro notification hnotification
        rcases List.mem_append.mp hnotification with hold | hnew
        · exact hmatched.ended notification hold
        · rw [List.mem_singleton.mp hnew]
          exact hended

theorem Matched.finish (hmatched : queue.Matched) {environment : Environment}
    {nextOperation : List NewCommand} {answers : List Answer}
    {removals : List Removal}
    (hfinish : queue.finish environment nextOperation answers =
      some (final, removals)) :
    final.Matched ∧ ∀ removal ∈ removals, removal.Own := by
  unfold CommandQueue.finish at hfinish
  split at hfinish
  · cases hfinish
  · rename_i notification later hnotifications
    have hended : ∀ other ∈ later, other.replyCode ≠ Reply.wouldblock := by
      intro other hother
      apply hmatched.ended
      rw [hnotifications]
      exact List.mem_cons_of_mem _ hother
    simp only at hfinish
    split at hfinish
    · rename_i hlock
      split at hfinish
      · cases hfinish
        exact ⟨matched_of_locked hlock hended, by simp⟩
      · cases hfinish
    · rename_i hlock
      have hunlocked := Bool.eq_false_iff.mpr hlock
      -- The notification is that of the front, if there is a front.
      have hsingle : ∀ entry, queue.commandList.head? = some entry →
          entry.execution = some notification.execution ∧ later = [] ∧
            queue.running = none := by
        intro entry hentry
        obtain ⟨execution, hexecution, hone⟩ :=
          hmatched.front hunlocked entry hentry
        unfold outstanding at hone
        rw [hnotifications, List.map_cons, List.cons_append,
          List.cons.injEq, List.append_eq_nil_iff, List.map_eq_nil_iff,
          List.map_eq_nil_iff, Option.toList_eq_nil_iff] at hone
        exact ⟨hone.1 ▸ hexecution, hone.2⟩
      have hcode : notification.replyCode ≠ Reply.wouldblock := by
        apply hmatched.ended
        rw [hnotifications]
        exact List.mem_cons_self
      obtain ⟨hsame, hown, hreturned⟩ := processReply_spec
        { queue with notifications := later }
        (fun entry hentry => (hsingle entry hentry).1)
        notification.replyCode notification.commandId environment
      have hempty : queue.commandList = [] → processReply
          { queue with notifications := later } notification.execution
          notification.replyCode notification.commandId environment =
          ({ queue with notifications := later }, [], false) := by
        intro hlist
        unfold processReply
        rw [if_neg hcode]
        simp only
        rw [hlist]
      generalize processReply { queue with notifications := later }
        notification.execution notification.replyCode notification.commandId
        environment = result at *
      obtain ⟨processed, first, again⟩ := result
      simp only at hfinish hsame hown hreturned hempty
      split at hfinish
      · rename_i heq
        cases heq
        have hlist : queue.commandList = [] :=
          (hreturned rfl).resolve_left hcode
        have hprocessed := hempty hlist
        split at hfinish
        · cases hfinish
          cases hprocessed
          refine ⟨⟨?_, ?_, hended⟩, by simp⟩
          · intro _ entry hentry
            rw [hlist] at hentry
            cases hentry
          · intro _ _
            exact hmatched.idle hunlocked hlist
        · cases hfinish
      · rename_i heq
        cases heq
        have hnonempty : queue.commandList ≠ [] := by
          intro hlist
          cases hempty hlist
        obtain ⟨entry, hentry⟩ :=
          Option.ne_none_iff_exists'.mp
            (mt List.head?_eq_none_iff.mp hnonempty)
        obtain ⟨_, hlater, hrunning⟩ := hsingle entry hentry
        split at hfinish
        · cases hfinish
        · rename_i last more hprocess
          cases hfinish
          have hprocessedLock : processed.exclusiveLock = false := by
            rw [hsame]
            exact hunlocked
          have hprocessedNone : processed.outstanding = [] := by
            rw [hsame.outstanding]
            exact outstanding_eq_nil.mpr ⟨hlater, hrunning⟩
          obtain ⟨hfinal, hmore⟩ :=
            processNextCommand_spec hprocessedLock hprocessedNone hprocess
          refine ⟨hfinal, ?_⟩
          intro removal hremoval
          rcases List.mem_append.mp hremoval with hhead | htail
          · exact hown removal hhead
          · exact hmore removal htail

theorem Matched.withRequests (hmatched : queue.Matched)
    (requests : List Handler) :
    Matched { queue with exclusiveRequests := requests } :=
  ⟨hmatched.front, hmatched.idle, hmatched.ended⟩

theorem Matched.requestExclusiveEngine (hmatched : queue.Matched)
    (handler : Handler) : (queue.requestExclusiveEngine handler).Matched := by
  unfold CommandQueue.requestExclusiveEngine
  split
  · exact hmatched
  · have hrequested := hmatched.withRequests
      (queue.exclusiveRequests ++ [handler])
    simp only
    split
    · exact hrequested.grant
    · exact hrequested

theorem Matched.executeExclusive (hmatched : queue.Matched) {command : Command}
    (hexecute : queue.executeExclusive command = some final) :
    final.Matched := by
  unfold CommandQueue.executeExclusive at hexecute
  split at hexecute
  · rename_i hlock
    cases hexecute
    exact matched_of_locked hlock.1 hmatched.ended
  · cases hexecute

theorem Matched.releaseEngine (hmatched : queue.Matched) {handler : Handler}
    (hundelivered : queue.exclusiveRequests.head? = some handler →
      (queue.exclusiveLock = true → queue.running = none) ∧
        (queue.running = none → queue.notifications = []))
    {nextOperation : List NewCommand} {answers : List Answer}
    {removals : List Removal}
    (hrelease : queue.releaseEngine handler nextOperation answers =
      some (final, removals)) :
    final.Matched ∧ ∀ removal ∈ removals, removal.Own := by
  unfold CommandQueue.releaseEngine at hrelease
  simp only at hrelease
  split at hrelease
  · rename_i hhead
    obtain ⟨hlocked, hdelivered⟩ := hundelivered hhead
    by_cases hlock : queue.exclusiveLock = true
    · have hrunning := hlocked hlock
      apply processNextCommand_spec _ _ hrelease
      · rfl
      · exact outstanding_eq_nil.mpr ⟨hdelivered hrunning, hrunning⟩
    · have hunlocked := Bool.eq_false_iff.mpr hlock
      have hsame : Matched
          { queue with
            exclusiveRequests := queue.exclusiveRequests.erase handler
            exclusiveLock := false } :=
        ⟨fun _ => hmatched.front hunlocked, fun _ => hmatched.idle hunlocked,
          hmatched.ended⟩
      exact hsame.processNextCommand (fun _ => hdelivered) hrelease
  · split at hrelease
    · cases hrelease
      exact ⟨hmatched.withRequests _, by simp⟩
    · cases hrelease

/-! ## Every run -/

/-- Commands are executed only while no notification of an earlier call is on
its way: when a command is added to an empty queue, and when the queue is made
to go on other than by a notification.  A handler gives the engine back when
its operation has ended. -/
def Allowed (queue : CommandQueue) : Request → Prop
  | .processCommand _ _ => queue.quit = false → queue.exclusiveLock = false →
      queue.commandList = [] → queue.notifications = []
  | .processNextCommand _ _ => queue.exclusiveLock = false →
      queue.running = none → queue.notifications = []
  | .releaseEngine handler _ _ =>
      queue.exclusiveRequests.head? = some handler →
        (queue.exclusiveLock = true → queue.running = none) ∧
          (queue.running = none → queue.notifications = [])
  | _ => True

instance (queue : CommandQueue) (request : Request) :
    Decidable (queue.Allowed request) := by
  cases request <;> unfold Allowed <;> infer_instance

/-- One step that meets the condition, and what it removes. -/
theorem step_matched (hmatched : queue.Matched) {request : Request}
    (hallowed : queue.Allowed request) {removals : List Removal}
    (hstep : step queue request = some (final, removals)) :
    final.Matched ∧ ∀ removal ∈ removals, removal.Own := by
  cases request with
  | processCommand command answers =>
      exact hmatched.processCommand command hallowed hstep
  | processNextCommand nextOperation answers =>
      exact hmatched.processNextCommand hallowed hstep
  | cancel =>
      have hcancel := hmatched.cancel
      rw [Option.some.inj hstep] at hcancel
      exact hcancel
  | quit =>
      have hquit : Matched { queue with quit := true } :=
        ⟨hmatched.front, hmatched.idle, hmatched.ended⟩
      have heq : CommandQueue.cancel { queue with quit := true } =
          (final, removals) := Option.some.inj hstep
      have hcancel := hquit.cancel
      rw [heq] at hcancel
      exact hcancel
  | resetOperation replyCode =>
      obtain ⟨last, hreset, heq⟩ := Option.map_eq_some_iff.mp hstep
      cases heq
      exact ⟨hmatched.resetOperation hreset, by simp⟩
  | finish environment nextOperation answers =>
      exact hmatched.finish hstep
  | requestExclusiveEngine handler =>
      cases hstep
      exact ⟨hmatched.requestExclusiveEngine handler, by simp⟩
  | executeExclusive command =>
      obtain ⟨last, hexecute, heq⟩ := Option.map_eq_some_iff.mp hstep
      cases heq
      exact ⟨hmatched.executeExclusive hexecute, by simp⟩
  | releaseEngine handler nextOperation answers =>
      exact hmatched.releaseEngine hallowed hstep

theorem matched_initial (hinitial : machine.initial queue) :
    queue.Matched := by
  cases hinitial
  constructor
  · intro _ entry hentry
    cases hentry
  · exact fun _ _ => rfl
  · intro notification hnotification
    cases hnotification

/-- In every run in which no command is executed while the notification of an
earlier call is on its way, a command that is neither cancelled nor waiting
for a connection that has failed is removed by the reply to its own call. -/
theorem removals_of_every_run {requests : List Request}
    {removals : List Removal}
    (hreach : machine.ReachesWithin Allowed requests removals queue) :
    ∀ removal ∈ removals,
      removal.cause = .cancel ∨ removal.cause = .failedConnect ∨
        ∃ execution, removal.cause = .reply execution ∧
          removal.entry.execution = some execution := by
  have hown : ∀ removal ∈ removals, removal.Own :=
    hreach.outputs_all Matched Removal.Own
      (fun _ hinitial => matched_initial hinitial)
      fun _ _ _ _ hmatched hallowed hstep =>
        step_matched hmatched hallowed hstep
  intro removal hremoval
  cases hcause : removal.cause with
  | cancel => exact Or.inl rfl
  | failedConnect => exact Or.inr (Or.inl rfl)
  | reply execution =>
      exact Or.inr (Or.inr ⟨execution, rfl, hown removal hremoval execution
        hcause⟩)

def quiet : Environment where
  site := true
  linkIsNotDir := []
  recursiveListingFailed := []
  listingFailed := []
  stopRecursiveOperation := []

def blocks : Answer := ⟨Reply.wouldblock, quiet⟩

/-- A command fails with the connection, which is established again before
the command is executed once more. -/
def deleteAfterReconnect : List Request :=
  [.processCommand ⟨.normal, .del⟩ [blocks],
    .resetOperation (Reply.error ||| Reply.disconnected),
    .finish quiet [] [blocks], .resetOperation Reply.ok,
    .finish quiet [] [blocks], .resetOperation Reply.ok,
    .finish quiet [] []]

/-- The connection is made anew before the command is sent again. -/
theorem removals_of_every_run_reconnect : ∃ queue removals,
    machine.ReachesWithin Allowed deleteAfterReconnect removals queue ∧
      removals = [⟨⟨.normal, .connect, false, some 1⟩, .reply 1⟩,
        ⟨⟨.normal, .del, true, some 2⟩, .reply 2⟩] ∧
      ∀ removal ∈ removals, removal.cause = .cancel ∨
        removal.cause = .failedConnect ∨
        ∃ execution, removal.cause = .reply execution ∧
          removal.entry.execution = some execution := by
  have hstart : machine.ReachesWithin Allowed [] [] empty := .start rfl
  have hreach : machine.ReachesWithin Allowed deleteAfterReconnect _ _ :=
    hstart.exec rfl
  exact ⟨_, _, hreach, rfl, removals_of_every_run hreach⟩

/-- The listing has ended when it is cancelled, and its notification removes
the command that has been executed after it. -/
def renameAfterCancel : List Request :=
  [.processCommand ⟨.normal, .list⟩ [blocks], .resetOperation Reply.ok,
    .cancel, .processCommand ⟨.normal, .rename⟩ [blocks],
    .finish quiet [] []]

/-- The `rename` goes with the notification of the listing before it. -/
theorem rename_removed_by_listing : ∃ queue removals,
    machine.Reaches renameAfterCancel removals queue ∧
      (⟨⟨.normal, .rename, false, some 1⟩, .reply 0⟩ : Removal) ∈
        removals := by
  have hstart : machine.Reaches [] [] empty := .start rfl
  have hreach : machine.Reaches renameAfterCancel
      [⟨⟨.normal, .list, false, some 0⟩, .cancel⟩,
        ⟨⟨.normal, .rename, false, some 1⟩, .reply 0⟩] _ :=
    hstart.exec rfl
  exact ⟨_, _, hreach, List.mem_cons_of_mem _ List.mem_cons_self⟩

end CommandQueue

end TabFtp
