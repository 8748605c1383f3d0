import TabFtp.FtpOperationOwners

/-!
# Replies reach the operation that sent the command

The two counters of the control socket describe a window on the ledger of the
server, as far as the socket has read it: the first `repliesToSkip` of
`pendingReplies` entries belong to operations that are gone or to keep-alives,
all further ones to the operation that is on top of the stack.
-/

namespace TabFtp

open LabelledRuns ReplayedChannel

/-! ## The ledger -/

theorem ReplyLedger.next_owed
    {ledger following : ReplyLedger} {line : WString} {tag : Tag}
    (hnext : ledger.next (line, tag) = some following) :
    ∃ rest, ledger.owed = tag :: rest := by
  unfold ReplyLedger.next at hnext
  cases howed : ledger.owed with
  | nil => simp [howed] at hnext
  | cons first rest =>
      simp only [howed, List.head?_cons] at hnext
      split_ifs at hnext with hfirst
      all_goals
        rw [not_not, Option.some.injEq] at hfirst
        exact ⟨rest, by rw [hfirst]⟩

theorem ReplyLedger.next_cases
    {ledger following : ReplyLedger} {line : WString} {tag : Tag}
    (hnext : ledger.next (line, tag) = some following) :
    3 < line.length ∧
        (ledger.code ≠ [] ∧ line.take 4 = ledger.code ∨
          ledger.code = [] ∧ (line.drop 3).head? ≠ some '-') ∧
        following = ledger.settle line ∨
      ledger.code ≠ [] ∧
        ¬ (3 < line.length ∧ line.take 4 = ledger.code) ∧
        following = ledger ∨
      ledger.code = [] ∧ 3 < line.length ∧
        (line.drop 3).head? = some '-' ∧
        following = { ledger with code := line.take 3 ++ [' '] } := by
  unfold ReplyLedger.next at hnext
  simp only at hnext
  split_ifs at hnext with _ hcode hlast hline hfirst
  · cases hnext
    exact Or.inl ⟨hlast.1, Or.inl ⟨hcode, hlast.2⟩, rfl⟩
  · cases hnext
    exact Or.inr (Or.inl ⟨hcode, hlast, rfl⟩)
  · cases hnext
    exact Or.inr (Or.inr ⟨not_not.mp hcode, hline.1, hfirst, rfl⟩)
  · cases hnext
    exact Or.inl ⟨hline.1, Or.inr ⟨not_not.mp hcode, hfirst⟩, rfl⟩

theorem ReplyLedger.settle_owe
    {ledger : ReplyLedger} {first : Tag} {rest : List Tag}
    (howed : ledger.owed = first :: rest) (line : WString) (tag : Tag) :
    (ledger.owe tag).settle line = (ledger.settle line).owe tag := by
  unfold ReplyLedger.settle ReplyLedger.owe
  rw [howed]
  split_ifs <;> simp

theorem ReplyLedger.owe_commutes (tag : Tag) :
    Commutes ReplyLedger.next (ReplyLedger.owe tag) := by
  intro ledger packet following hnext
  rcases packet with ⟨line, oldest⟩
  rcases ReplyLedger.next_owed hnext with ⟨rest, howed⟩
  have hsettle := ReplyLedger.settle_owe howed line tag
  have hhead : (ledger.owe tag).owed.head? = ledger.owed.head? := by
    simp [ReplyLedger.owe, howed]
  have hcode : (ledger.owe tag).code = ledger.code := rfl
  unfold ReplyLedger.next at hnext ⊢
  simp only [hhead, hcode, hsettle] at hnext ⊢
  split_ifs at hnext ⊢
  all_goals
    cases hnext
    rfl

/-! ## The invariant -/

def FtpSystem.topOwner (system : FtpSystem) : Tag :=
  system.operations.head?.map OpData.owner

/-- While the connection is being made the logon is on top, and the only
request that it can be asked about is one for the certificate. -/
structure FtpSystem.Connecting (system : FtpSystem) : Prop where
  pendingReplies : system.pendingReplies = 0
  repliesToSkip : system.repliesToSkip = 0
  idle : system.control = .idle
  logon : ∃ top rest, system.operations = top :: rest ∧
    top.opId = .connect ∧
    (top.asyncRequestState = .none ∨
      system.lastRequest = some .certificate)

structure FtpSystem.TlsFits (system : FtpSystem) : Prop where
  closed : system.link = .closed → system.tlsLayer = .absent
  connecting : system.link = .connecting → system.tlsLayer ≠ .absent →
    system.protocol = .ftps
  opened : system.link = .opened → system.tlsLayer = .connecting →
    system.protocol ≠ .ftps ∧
      (system.protocol = .ftpes ∨ system.protocol = .ftp)

/-- `owed` is the ledger as far as the socket has read the replies. -/
structure FtpSystem.Accounted (system : FtpSystem) (owed : List Tag) :
    Prop where
  skip_nonneg : 0 ≤ system.repliesToSkip
  skip_le : system.repliesToSkip ≤ system.pendingReplies
  replayed :
    replay ReplyLedger.next ⟨system.multilineResponseCode, owed⟩ system.wire =
      some system.server
  pending : system.link = .opened → system.pendingReplies = owed.length
  unlinked : system.link ≠ .opened →
    system.multilineResponseCode = [] ∧ owed = []
  connecting : system.link = .connecting → system.Connecting
  current : ∀ tag ∈ owed.drop system.repliesToSkip.toNat,
    tag ≠ none ∧ tag = system.topOwner
  tls : system.TlsFits

def FtpSystem.Balanced (system : FtpSystem) : Prop :=
  ∃ owed, system.Accounted owed

namespace FtpSystem

variable {system : FtpSystem} {owed : List Tag}

theorem Accounted.link_ne_connecting
    (haccounted : system.Accounted owed) (hcontrol : system.control ≠ .idle) :
    system.link ≠ .connecting := by
  intro hlink
  exact hcontrol (haccounted.connecting hlink).idle

theorem Accounted.link_ne_connecting_of_nil
    (haccounted : system.Accounted owed) (hoperations : system.operations = []) :
    system.link ≠ .connecting := by
  intro hlink
  rcases (haccounted.connecting hlink).logon with ⟨top, rest, htop, _⟩
  rw [hoperations] at htop
  cases htop

theorem Accounted.setControl
    (haccounted : system.Accounted owed) (hlink : system.link ≠ .connecting)
    (control : Control) :
    { system with control := control }.Accounted owed where
  skip_nonneg := haccounted.skip_nonneg
  skip_le := haccounted.skip_le
  replayed := haccounted.replayed
  pending := haccounted.pending
  unlinked := haccounted.unlinked
  connecting h := absurd h hlink
  current := haccounted.current
  tls := ⟨haccounted.tls.closed, haccounted.tls.connecting,
    haccounted.tls.opened⟩

theorem accounted_resetSocket (system : FtpSystem) :
    system.resetSocket.Accounted [] where
  skip_nonneg := le_refl 0
  skip_le := le_refl 0
  replayed := rfl
  pending h := by cases h
  unlinked _ := ⟨rfl, rfl⟩
  connecting h := by cases h
  current := by simp
  tls := by
    constructor <;> intro hlink
    · rfl
    · cases hlink
    · cases hlink

theorem accounted_doClose (system : FtpSystem) (errorCode : Reply) :
    (system.doClose errorCode).Accounted [] :=
  (accounted_resetSocket system).setControl
    (by simp [FtpSystem.resetSocket]) _

theorem Accounted.sendCommand
    (haccounted : system.Accounted owed) (hlink : system.link = .opened)
    {tag : Tag} (htag : tag ≠ none) (htop : tag = system.topOwner) :
    (system.sendCommand tag).Accounted (owed ++ [tag]) where
  skip_nonneg := haccounted.skip_nonneg
  skip_le := by
    have hle := haccounted.skip_le
    simp only [FtpSystem.sendCommand]
    omega
  replayed := replay_update (ReplyLedger.owe_commutes tag) haccounted.replayed
  pending _ := by
    have hpending := haccounted.pending hlink
    simp only [FtpSystem.sendCommand, List.length_append, List.length_singleton]
    omega
  unlinked h := absurd hlink h
  connecting h := by
    have hopened : system.link = .connecting := h
    rw [hlink] at hopened
    cases hopened
  current := by
    intro other hmem
    have hdrop := List.mem_of_mem_drop hmem
    rw [List.mem_append, List.mem_singleton] at hdrop
    simp only [FtpSystem.sendCommand, List.drop_append, List.mem_append] at hmem
    rcases hmem with hold | hnew
    · exact haccounted.current other hold
    · have hother := List.mem_of_mem_drop hnew
      rw [List.mem_singleton] at hother
      rw [hother]
      exact ⟨htag, htop⟩
  tls := ⟨haccounted.tls.closed, haccounted.tls.connecting,
    haccounted.tls.opened⟩

/-! ## What remains to be done -/

theorem topOwner_eq_head? (system : FtpSystem) :
    system.topOwner = (system.operations.map OpData.owner).head? := by
  rw [FtpSystem.topOwner, List.head?_map]

/-- A change that touches neither the connection nor the counters keeps the
accounts as long as the operation on top works for the same owner. -/
theorem Accounted.of_same
    (haccounted : system.Accounted owed) (hlink : system.link ≠ .connecting)
    {following : FtpSystem}
    (hfollowing : following =
      { system with
        operations := following.operations
        lastRequest := following.lastRequest
        control := following.control
        nextOwner := following.nextOwner })
    (howner : following.topOwner = system.topOwner) :
    following.Accounted owed := by
  have hcurrent := haccounted.current
  rw [← howner] at hcurrent
  rw [hfollowing] at hcurrent ⊢
  exact
    { skip_nonneg := haccounted.skip_nonneg
      skip_le := haccounted.skip_le
      replayed := haccounted.replayed
      pending := haccounted.pending
      unlinked := haccounted.unlinked
      connecting := fun h => absurd h hlink
      current := hcurrent
      tls := ⟨haccounted.tls.closed, haccounted.tls.connecting,
        haccounted.tls.opened⟩ }

/-- A request or its answer.  During the connection only the certificate may
be asked about. -/
theorem Accounted.setTopRequest
    (haccounted : system.Accounted owed)
    (state : AsyncRequestState) (request : Option RequestId)
    (hrequest : system.link = .connecting →
      state = .none ∨ request = some .certificate) :
    { system with
      operations := FtpSystem.setTopRequest state system.operations
      lastRequest := request }.Accounted owed where
  skip_nonneg := haccounted.skip_nonneg
  skip_le := haccounted.skip_le
  replayed := haccounted.replayed
  pending := haccounted.pending
  unlinked := haccounted.unlinked
  connecting hlink := by
    have hconnecting := haccounted.connecting hlink
    rcases hconnecting.logon with ⟨top, rest, htop, hlogon, _⟩
    refine
      { pendingReplies := hconnecting.pendingReplies
        repliesToSkip := hconnecting.repliesToSkip
        idle := hconnecting.idle
        logon := ?_ }
    refine ⟨{ top with asyncRequestState := state }, rest, ?_, hlogon,
      hrequest hlink⟩
    simp only [htop, FtpSystem.setTopRequest]
  current tag hmem := by
    rw [topOwner_eq_head?, setTopRequest_owners, ← topOwner_eq_head?]
    exact haccounted.current tag hmem
  tls := ⟨haccounted.tls.closed, haccounted.tls.connecting,
    haccounted.tls.opened⟩

theorem Accounted.sendAsyncRequest
    (haccounted : system.Accounted owed) (request : RequestId) (wait : Bool)
    (hrequest : system.link = .connecting → request = .certificate) :
    (system.sendAsyncRequest request wait).Accounted owed := by
  unfold FtpSystem.sendAsyncRequest
  split
  · exact haccounted
  · refine haccounted.setTopRequest _ _ fun hlink => Or.inr ?_
    rw [hrequest hlink]

theorem push_topOwner
    (hoperations : system.operations ≠ []) (opId : Command) :
    (system.push opId).topOwner = system.topOwner := by
  unfold FtpSystem.push FtpSystem.topOwner
  cases htop : system.operations with
  | nil => exact absurd htop hoperations
  | cons top rest => rfl

theorem Accounted.push
    (haccounted : system.Accounted owed) (hlink : system.link ≠ .connecting)
    (hoperations : system.operations ≠ []) (opId : Command) :
    (system.push opId).Accounted owed := by
  refine haccounted.of_same hlink ?_ (push_topOwner hoperations opId)
  unfold FtpSystem.push
  cases htop : system.operations with
  | nil => exact absurd htop hoperations
  | cons top rest => rfl

theorem Accounted.perform
    (haccounted : system.Accounted owed) (hlink : system.link ≠ .connecting)
    {action : Action} {following : FtpSystem}
    (hperform : system.perform action = some following) :
    following.link = system.link ∧ following.Balanced := by
  cases action with
  | sendCommand =>
      simp only [FtpSystem.perform] at hperform
      split at hperform
      · cases hperform
      · rename_i top rest htop
        split_ifs at hperform with hopened
        cases hperform
        refine ⟨rfl, _, haccounted.sendCommand hopened (by simp) ?_⟩
        simp [FtpSystem.topOwner, htop]
  | push opId =>
      simp only [FtpSystem.perform] at hperform
      split_ifs at hperform with hnil
      cases hperform
      refine ⟨?_, owed, haccounted.push hlink hnil opId⟩
      unfold FtpSystem.push
      split
      · rfl
      · split_ifs <;> rfl
  | sendAsyncRequest request wait =>
      cases hperform
      refine ⟨?_, owed, haccounted.sendAsyncRequest request wait
        fun hconnecting => absurd hconnecting hlink⟩
      unfold FtpSystem.sendAsyncRequest
      split <;> rfl
  | startTls =>
      simp only [FtpSystem.perform] at hperform
      split_ifs at hperform with hguard
      cases hperform
      rcases hguard with ⟨hopened, _, hprotocol⟩
      refine ⟨rfl, owed, ?_⟩
      exact
        { skip_nonneg := haccounted.skip_nonneg
          skip_le := haccounted.skip_le
          replayed := haccounted.replayed
          pending := haccounted.pending
          unlinked := haccounted.unlinked
          connecting := fun h => absurd h hlink
          current := haccounted.current
          tls :=
            { closed := fun h => by rw [hopened] at h; cases h
              connecting := fun h => absurd h hlink
              opened := fun _ _ => by
                rcases hprotocol with h | h <;> simp [h] } }

theorem Accounted.performAll
    {actions : List Action} {following : FtpSystem}
    (haccounted : system.Accounted owed) (hlink : system.link ≠ .connecting)
    (hperform : system.performAll actions = some following) :
    following.link ≠ .connecting ∧ following.Balanced := by
  induction actions generalizing system owed with
  | nil =>
      cases hperform
      exact ⟨hlink, owed, haccounted⟩
  | cons action actions ih =>
      simp only [FtpSystem.performAll, Option.bind_eq_some_iff] at hperform
      rcases hperform with ⟨middle, hfirst, hrest⟩
      rcases haccounted.perform hlink hfirst with ⟨hsame, next, hmiddle⟩
      exact ih hmiddle (by rwa [hsame]) hrest

theorem Accounted.afterSend
    (haccounted : system.Accounted owed) (hlink : system.link ≠ .connecting)
    (res : Reply) : (system.afterSend res).Balanced := by
  unfold FtpSystem.afterSend
  split_ifs
  · exact ⟨owed, haccounted.setControl hlink _⟩
  · exact ⟨owed, haccounted.setControl hlink _⟩
  · exact ⟨[], accounted_doClose system res⟩
  · exact ⟨owed, haccounted.setControl hlink _⟩
  · exact ⟨owed, haccounted.setControl hlink _⟩
  · exact ⟨owed, haccounted.setControl hlink _⟩

theorem Accounted.afterResponse
    (haccounted : system.Accounted owed) (hlink : system.link ≠ .connecting)
    (res : Reply) : (system.afterResponse res).Balanced := by
  unfold FtpSystem.afterResponse
  split_ifs
  · exact ⟨owed, haccounted.setControl hlink _⟩
  · exact ⟨owed, haccounted.setControl hlink _⟩
  · exact ⟨[], accounted_doClose system res⟩
  · exact ⟨[], accounted_doClose system _⟩
  · exact ⟨owed, haccounted.setControl hlink _⟩
  · exact ⟨owed, haccounted.setControl hlink _⟩

theorem accounted_connecting
    {top : OpData} {rest : List OpData}
    (htop : system.operations = top :: rest) (hlogon : top.opId = .connect)
    (hrequest : top.asyncRequestState = .none) :
    { system.resetSocket with
      link := .connecting
      control := .idle }.Accounted [] where
  skip_nonneg := le_refl 0
  skip_le := le_refl 0
  replayed := rfl
  pending h := by cases h
  unlinked _ := ⟨rfl, rfl⟩
  connecting _ :=
    { pendingReplies := rfl
      repliesToSkip := rfl
      idle := rfl
      logon := ⟨top, rest, htop, hlogon, Or.inl hrequest⟩ }
  current := by simp
  tls := by
    constructor <;> intro hopened
    · cases hopened
    · intro htls
      exact absurd rfl htls
    · cases hopened

theorem Accounted.sendNextCommand
    (haccounted : system.Accounted owed) (hlink : system.link ≠ .connecting)
    {answer : Answer} {following : FtpSystem}
    (hsend : system.sendNextCommand answer = some following) :
    following.Balanced := by
  unfold FtpSystem.sendNextCommand at hsend
  split at hsend
  · cases hsend
    exact ⟨owed, haccounted.setControl hlink _⟩
  · rename_i top rest htop
    by_cases hwaiting : top.asyncRequestState = .waiting
    · rw [if_pos hwaiting] at hsend
      cases hsend
      exact ⟨owed, haccounted.setControl hlink _⟩
    by_cases hskip : system.repliesToSkip ≠ 0
    · rw [if_neg hwaiting, if_pos hskip] at hsend
      cases hsend
      exact ⟨owed, haccounted.setControl hlink _⟩
    · rw [if_neg hwaiting, if_neg hskip] at hsend
      cases answer with
      | perform actions res =>
          simp only [Option.map_eq_some_iff] at hsend
          rcases hsend with ⟨middle, hactions, hafter⟩
          rcases haccounted.performAll hlink hactions with
            ⟨hmiddle, next, haccount⟩
          rw [← hafter]
          exact haccount.afterSend hmiddle res
      | doConnect started =>
          simp only at hsend
          split_ifs at hsend with hlogon
          · cases hsend
            exact ⟨[], accounted_connecting htop hlogon.1 hlogon.2⟩
          · cases hsend
            exact (accounted_resetSocket system).afterSend
              (by simp [FtpSystem.resetSocket]) _
      | reset failure => cases hsend

theorem Accounted.skipAll
    (haccounted : system.Accounted owed) (hlink : system.link ≠ .connecting)
    (operations : List OpData) (control : Control) :
    { system with
      repliesToSkip := system.pendingReplies
      operations := operations
      control := control }.Balanced := by
  have hnonneg : 0 ≤ system.pendingReplies :=
    le_trans haccounted.skip_nonneg haccounted.skip_le
  have hdrop : owed.drop system.pendingReplies.toNat = [] := by
    by_cases hopened : system.link = .opened
    · have hpending := haccounted.pending hopened
      rw [List.drop_eq_nil_iff]
      omega
    · simp [(haccounted.unlinked hopened).2]
  refine ⟨owed, ?_⟩
  exact
    { skip_nonneg := hnonneg
      skip_le := le_refl _
      replayed := haccounted.replayed
      pending := haccounted.pending
      unlinked := haccounted.unlinked
      connecting := fun h => absurd h hlink
      current := by
        intro tag hmem
        rw [hdrop] at hmem
        cases hmem
      tls := ⟨haccounted.tls.closed, haccounted.tls.connecting,
        haccounted.tls.opened⟩ }

theorem Accounted.resetOperation
    (haccounted : system.Accounted owed) (hlink : system.link ≠ .connecting)
    (errorCode : Reply) (failure : TransferFailure) :
    (system.resetOperation errorCode failure).1.Balanced := by
  unfold FtpSystem.resetOperation
  cases hoperations : system.operations with
  | nil =>
      have hskip := haccounted.skipAll hlink system.operations .idle
      rwa [hoperations] at hskip
  | cons operation rest =>
      cases rest with
      | nil => exact haccounted.skipAll hlink [] .idle
      | cons below rest => exact haccounted.skipAll hlink (below :: rest) _

theorem Accounted.proceed
    (haccounted : system.Accounted owed) {answer : Answer}
    {following : FtpSystem} {events : List FtpEvent}
    (hproceed : system.proceed answer = some (following, events)) :
    following.Balanced := by
  have hlink : system.control ≠ .idle → system.link ≠ .connecting :=
    haccounted.link_ne_connecting
  unfold FtpSystem.proceed at hproceed
  cases hcontrol : system.control with
  | idle => simp [hcontrol] at hproceed
  | sendNextCommand =>
      simp only [hcontrol, Option.map_eq_some_iff, Prod.mk.injEq] at hproceed
      rcases hproceed with ⟨_, hsend, rfl, _⟩
      exact haccounted.sendNextCommand (hlink (by simp [hcontrol])) hsend
  | resetOperation errorCode =>
      simp only [hcontrol] at hproceed
      cases answer with
      | reset failure =>
          simp only [Option.some.injEq] at hproceed
          have hreset := haccounted.resetOperation
            (hlink (by simp [hcontrol])) errorCode failure
          rwa [hproceed] at hreset
      | perform | doConnect => cases hproceed
  | parseSubcommandResult prevResult =>
      simp only [hcontrol] at hproceed
      cases answer with
      | perform actions res =>
          simp only [Option.map_eq_some_iff, Prod.mk.injEq] at hproceed
          rcases hproceed with ⟨middle, hactions, rfl, _⟩
          rcases haccounted.performAll (hlink (by simp [hcontrol])) hactions
            with ⟨hmiddle, next, haccount⟩
          exact ⟨next, haccount.setControl hmiddle _⟩
      | reset | doConnect => cases hproceed
  | parseResponse =>
      simp only [hcontrol] at hproceed
      cases answer with
      | perform actions res =>
          simp only [Option.map_eq_some_iff, Prod.mk.injEq] at hproceed
          rcases hproceed with ⟨middle, hactions, rfl, _⟩
          rcases haccounted.performAll (hlink (by simp [hcontrol])) hactions
            with ⟨hmiddle, next, haccount⟩
          exact haccount.afterResponse hmiddle res
      | reset | doConnect => cases hproceed

/-! ## Replies -/

/-- A reply to the command of `tag` is complete and comes off the wire. -/
structure Reading (system : FtpSystem) (line : WString) (tag : Tag)
    (later : List Tag) : Prop where
  opened : system.link = .opened
  code : system.multilineResponseCode = []
  line_ne_nil : line ≠ []
  skip_nonneg : 0 ≤ system.repliesToSkip
  skip_le : system.repliesToSkip ≤ system.pendingReplies
  pending : system.pendingReplies = later.length + 1
  replayed : ∀ code : WString,
    replay ReplyLedger.next
      (ReplyLedger.settle ⟨code, tag :: later⟩ line) system.wire =
        some system.server
  current : ∀ other ∈ (tag :: later).drop system.repliesToSkip.toNat,
    other ≠ none ∧ other = system.topOwner
  tls : system.TlsFits

def owedAfter (line : WString) (tag : Tag) (later : List Tag) : List Tag :=
  if line.head? = some '1' then tag :: later else later

theorem Reading.accounted
    {line : WString} {tag : Tag} {later : List Tag}
    (hreading : system.Reading line tag later)
    {pendingReplies repliesToSkip : ℤ} (control : Control)
    (hnonneg : 0 ≤ repliesToSkip) (hle : repliesToSkip ≤ pendingReplies)
    (hpending : pendingReplies = (owedAfter line tag later).length)
    (hcurrent :
      ∀ other ∈ (owedAfter line tag later).drop repliesToSkip.toNat,
        other ∈ (tag :: later).drop system.repliesToSkip.toNat) :
    { system with
      pendingReplies := pendingReplies
      repliesToSkip := repliesToSkip
      control := control }.Accounted (owedAfter line tag later) where
  skip_nonneg := hnonneg
  skip_le := hle
  replayed := by
    change replay ReplyLedger.next
      ⟨system.multilineResponseCode, owedAfter line tag later⟩ system.wire =
        some system.server
    rw [hreading.code]
    exact hreading.replayed []
  pending _ := hpending
  unlinked h := absurd hreading.opened h
  connecting h := by
    have hlink : system.link = .connecting := h
    rw [hreading.opened] at hlink
    cases hlink
  current other hmem := hreading.current other (hcurrent other hmem)
  tls := ⟨hreading.tls.closed, hreading.tls.connecting, hreading.tls.opened⟩

/-- Only the operation on top gets a reply, and it is the one that sent the
command. -/
def HandsToTop (system : FtpSystem) (events : List FtpEvent) : Prop :=
  ∀ owner tag, .handed owner tag ∈ events →
    tag = some owner ∧ system.topOwner = some owner

theorem Reading.parseResponse
    {line : WString} {tag : Tag} {later : List Tag}
    (hreading : system.Reading line tag later) :
    (system.parseResponse line tag).1.Balanced ∧
      system.HandsToTop (system.parseResponse line tag).2 := by
  have hnonneg := hreading.skip_nonneg
  have hle := hreading.skip_le
  have hpending := hreading.pending
  have hexpected : ¬ (line = [] ∨
      (!decide (line.head? = some '1')) = true ∧
        ¬ 0 < system.pendingReplies) := by
    rintro (hnil | ⟨_, hnone⟩)
    · exact hreading.line_ne_nil hnil
    · omega
  unfold FtpSystem.parseResponse
  rw [if_neg hexpected]
  by_cases hskip : system.repliesToSkip = 0
  · have htop := hreading.current tag (by simp [hskip])
    cases hoperations : system.operations with
    | nil => simp [FtpSystem.topOwner, hoperations] at htop
    | cons top below =>
        have howner : tag = some top.owner := by
          simpa [FtpSystem.topOwner, hoperations] using htop.2
        simp only [hskip, ne_eq, not_true_eq_false, if_false]
        rw [← hoperations]
        constructor
        · refine ⟨owedAfter line tag later,
            hreading.accounted .parseResponse (le_refl 0) ?_ ?_ ?_⟩
          · split_ifs <;> omega
          · unfold owedAfter
            by_cases hpre : line.head? = some '1'
            · simpa [hpre] using hpending
            · simpa [hpre, sub_eq_iff_eq_add] using hpending
          · rw [hskip]
            unfold owedAfter
            intro other hmem
            split_ifs at hmem
            · exact hmem
            · exact List.mem_cons_of_mem tag hmem
        · intro owner other hmem
          simp only [List.mem_singleton, FtpEvent.handed.injEq] at hmem
          rw [hmem.1, hmem.2]
          exact ⟨howner, by rw [← howner, htop.2]⟩
  · have hpred : system.repliesToSkip.toNat =
        (system.repliesToSkip - 1).toNat + 1 := by
      omega
    simp only [hskip, ne_eq, not_false_eq_true, if_true]
    constructor
    · by_cases hpre : line.head? = some '1'
      · simp only [hpre, decide_true, if_true]
        refine ⟨owedAfter line tag later,
          hreading.accounted _ hnonneg hle ?_ ?_⟩
        · simpa [owedAfter, hpre] using hpending
        · simp [owedAfter, hpre]
      · simp only [hpre, decide_false, Bool.false_eq_true, if_false]
        refine ⟨owedAfter line tag later,
          hreading.accounted _ (by omega) (by omega) ?_ ?_⟩
        · simpa [owedAfter, hpre, sub_eq_iff_eq_add] using hpending
        · rw [hpred, List.drop_succ_cons]
          simp [owedAfter, hpre]
    · intro owner other hmem
      simp at hmem

theorem Accounted.opened_of_owed
    (haccounted : system.Accounted owed) (howed : owed ≠ []) :
    system.link = .opened := by
  by_contra hlink
  exact howed (haccounted.unlinked hlink).2

theorem Accounted.readLine
    (haccounted : system.Accounted owed) (howed : owed ≠ [])
    {code : WString} {lines : List WString} {rest : List (WString × Tag)}
    (hreplayed :
      replay ReplyLedger.next ⟨code, owed⟩ rest = some system.server) :
    { system with
      multilineResponseCode := code
      multilineResponseLines := lines
      wire := rest }.Accounted owed := by
  have hopened := haccounted.opened_of_owed howed
  exact
    { skip_nonneg := haccounted.skip_nonneg
      skip_le := haccounted.skip_le
      replayed := hreplayed
      pending := haccounted.pending
      unlinked := fun h => absurd hopened h
      connecting := fun h => by
        have hlink : system.link = .connecting := h
        rw [hopened] at hlink
        cases hlink
      current := haccounted.current
      tls := ⟨haccounted.tls.closed, haccounted.tls.connecting,
        haccounted.tls.opened⟩ }

theorem Accounted.readReply
    {tag : Tag} {later : List Tag}
    (haccounted : system.Accounted (tag :: later))
    {line : WString} (hline : 3 < line.length)
    {lines : List WString} {rest : List (WString × Tag)}
    (hreplayed :
      replay ReplyLedger.next
        (ReplyLedger.settle
          ⟨system.multilineResponseCode, tag :: later⟩ line) rest =
        some system.server) :
    { system with
      multilineResponseCode := []
      multilineResponseLines := lines
      wire := rest }.Reading line tag later := by
  have hopened := haccounted.opened_of_owed (List.cons_ne_nil tag later)
  exact
    { opened := hopened
      code := rfl
      line_ne_nil := by
        intro hnil
        simp [hnil] at hline
      skip_nonneg := haccounted.skip_nonneg
      skip_le := haccounted.skip_le
      pending := by simpa using haccounted.pending hopened
      replayed := fun _ => hreplayed
      current := haccounted.current
      tls := ⟨haccounted.tls.closed, haccounted.tls.connecting,
        haccounted.tls.opened⟩ }

theorem Accounted.receive
    (haccounted : system.Accounted owed)
    {line : WString} {tag : Tag} {rest : List (WString × Tag)}
    (hwire : system.wire = (line, tag) :: rest) :
    ({ system with wire := rest }.parseLine line tag).1.Balanced ∧
      system.HandsToTop
        ({ system with wire := rest }.parseLine line tag).2 := by
  have hreplayed := haccounted.replayed
  rw [hwire, replay_cons] at hreplayed
  rcases hreplayed with ⟨middle, hnext, hrest⟩
  rcases ReplyLedger.next_owed hnext with ⟨later, howed⟩
  have howed : owed = tag :: later := howed
  subst howed
  have hnone : system.HandsToTop [] := by
    intro owner other hmem
    cases hmem
  unfold FtpSystem.parseLine
  rcases ReplyLedger.next_cases hnext with
    ⟨hline, hlast, rfl⟩ | ⟨hcode, hlast, rfl⟩ | ⟨hcode, hline, hfirst, rfl⟩
  · rw [if_pos hline]
    rcases hlast with ⟨hcode, hlast⟩ | ⟨hcode, hlast⟩
    · rw [if_pos hcode, if_pos hlast]
      exact (haccounted.readReply hline hrest).parseResponse
    · have hsame : { system with wire := rest } =
          { system with
            multilineResponseCode := []
            multilineResponseLines := system.multilineResponseLines
            wire := rest } := by
        have hempty : system.multilineResponseCode = [] := hcode
        rw [← hempty]
      rw [if_neg (not_not.mpr hcode), if_neg hlast, hsame]
      exact (haccounted.readReply hline hrest).parseResponse
  · by_cases hline : 3 < line.length
    · have hother : line.take 4 ≠ system.multilineResponseCode :=
        fun heq => hlast ⟨hline, heq⟩
      rw [if_pos hline, if_pos hcode, if_neg hother]
      split_ifs
      · exact ⟨⟨_, haccounted.readLine (by simp) hrest⟩, hnone⟩
      · exact ⟨⟨[], accounted_doClose _ Reply.error⟩, hnone⟩
    · rw [if_neg hline]
      exact ⟨⟨_, haccounted.readLine (by simp) hrest⟩, hnone⟩
  · rw [if_pos hline, if_neg (not_not.mpr hcode), if_pos hfirst]
    exact ⟨⟨_, haccounted.readLine (by simp) hrest⟩, hnone⟩

/-! ## Events -/

theorem Accounted.skipped_of_nil
    (haccounted : system.Accounted owed)
    (hoperations : system.operations = []) :
    owed.drop system.repliesToSkip.toNat = [] := by
  rw [List.eq_nil_iff_forall_not_mem]
  intro tag hmem
  have htop := haccounted.current tag hmem
  rw [FtpSystem.topOwner, hoperations] at htop
  exact htop.1 htop.2

theorem Accounted.startOperation
    (haccounted : system.Accounted owed)
    (hoperations : system.operations = []) (opId : Command) :
    { system.push opId with control := .sendNextCommand }.Balanced := by
  have hlink := haccounted.link_ne_connecting_of_nil hoperations
  have hskipped := haccounted.skipped_of_nil hoperations
  have hnew : ∀ operations nextOwner,
      { system with
        operations := operations
        nextOwner := nextOwner
        control := .sendNextCommand }.Accounted owed := by
    intro operations nextOwner
    exact
      { skip_nonneg := haccounted.skip_nonneg
        skip_le := haccounted.skip_le
        replayed := haccounted.replayed
        pending := haccounted.pending
        unlinked := haccounted.unlinked
        connecting := fun h => absurd h hlink
        current := by simp [hskipped]
        tls := ⟨haccounted.tls.closed, haccounted.tls.connecting,
          haccounted.tls.opened⟩ }
  unfold FtpSystem.push
  simp only [hoperations]
  split
  · exact ⟨owed, hnew _ _⟩
  · exact ⟨owed, hnew _ _⟩

theorem Accounted.setProtocol
    (haccounted : system.Accounted owed) (hlink : system.link = .closed)
    (protocol : ServerProtocol) :
    { system with protocol := protocol }.Accounted owed where
  skip_nonneg := haccounted.skip_nonneg
  skip_le := haccounted.skip_le
  replayed := haccounted.replayed
  pending := haccounted.pending
  unlinked := haccounted.unlinked
  connecting h := by
    have hconnecting : system.link = .connecting := h
    rw [hlink] at hconnecting
    cases hconnecting
  current := haccounted.current
  tls := by
    constructor <;> intro h
    · exact haccounted.tls.closed h
    · have hconnecting : system.link = .connecting := h
      rw [hlink] at hconnecting
      cases hconnecting
    · have hopened : system.link = .opened := h
      rw [hlink] at hopened
      cases hopened

theorem Accounted.onTimer
    (haccounted : system.Accounted owed) (hlink : system.link = .opened) :
    system.onTimer.Balanced := by
  unfold FtpSystem.onTimer
  split_ifs with hoperations hcounters
  · exact ⟨owed, haccounted⟩
  · exact ⟨owed, haccounted⟩
  · push Not at hcounters
    have hpending := haccounted.pending hlink
    have hnil : owed = [] := by
      rw [← List.length_eq_zero_iff]
      omega
    subst hnil
    refine ⟨[none], ?_⟩
    exact
      { skip_nonneg := by simp [FtpSystem.sendCommand, hcounters.2]
        skip_le := by simp [FtpSystem.sendCommand, hcounters]
        replayed :=
          replay_update (ReplyLedger.owe_commutes none) haccounted.replayed
        pending := fun _ => by simp [FtpSystem.sendCommand, hcounters.1]
        unlinked := fun h => absurd hlink h
        connecting := fun h => by
          have hconnecting : system.link = .connecting := h
          rw [hlink] at hconnecting
          cases hconnecting
        current := by simp [FtpSystem.sendCommand, hcounters.2]
        tls := ⟨haccounted.tls.closed, haccounted.tls.connecting,
          haccounted.tls.opened⟩ }

theorem Accounted.awaitWelcome
    (haccounted : system.Accounted owed)
    (hlink : system.link = .connecting) {tlsLayer : TlsLayer}
    (htls : tlsLayer ≠ .connecting) :
    { system with tlsLayer := tlsLayer }.awaitWelcome.Balanced := by
  have hconnecting := haccounted.connecting hlink
  have hempty := haccounted.unlinked (by simp [hlink])
  have hreplayed := haccounted.replayed
  rw [hempty.1, hempty.2] at hreplayed
  rcases hconnecting.logon with ⟨top, rest, htop, _, _⟩
  refine ⟨[some top.owner], ?_⟩
  exact
    { skip_nonneg := haccounted.skip_nonneg
      skip_le := by
        simp [FtpSystem.awaitWelcome, hconnecting.repliesToSkip]
      replayed := by
        have hwelcome := replay_update
          (ReplyLedger.owe_commutes (some top.owner)) hreplayed
        simpa [FtpSystem.awaitWelcome, hempty.1, htop, ReplyLedger.owe]
          using hwelcome
      pending := fun _ => rfl
      unlinked := fun h => absurd rfl h
      connecting := fun h => by cases h
      current := by
        simp [FtpSystem.awaitWelcome, FtpSystem.topOwner, htop,
          hconnecting.repliesToSkip]
      tls := by
        constructor <;> intro h
        · cases h
        · cases h
        · intro hlayer
          exact absurd hlayer htls }

theorem Accounted.setTls
    (haccounted : system.Accounted owed) (tlsLayer : TlsLayer)
    (htls : { system with tlsLayer := tlsLayer }.TlsFits) :
    { system with tlsLayer := tlsLayer }.Accounted owed where
  skip_nonneg := haccounted.skip_nonneg
  skip_le := haccounted.skip_le
  replayed := haccounted.replayed
  pending := haccounted.pending
  unlinked := haccounted.unlinked
  connecting h :=
    let hconnecting := haccounted.connecting h
    ⟨hconnecting.pendingReplies, hconnecting.repliesToSkip,
      hconnecting.idle, hconnecting.logon⟩
  current := haccounted.current
  tls := htls

theorem Accounted.onConnect
    (haccounted : system.Accounted owed)
    (hlink : system.link = .connecting ∨
      system.link = .opened ∧ system.tlsLayer = .connecting) :
    system.onConnect.Balanced := by
  unfold FtpSystem.onConnect
  rcases hlink with hlink | ⟨hopened, htls⟩
  · have hplain := haccounted.tls.connecting hlink
    split_ifs with hftps habsent hexplicit
    · refine ⟨owed, haccounted.setTls _ ?_⟩
      constructor <;> intro h
      · have hclosed : system.link = .closed := h
        rw [hlink] at hclosed
        cases hclosed
      · intro _
        exact hftps
      · have hopened : system.link = .opened := h
        rw [hlink] at hopened
        cases hopened
    · exact haccounted.awaitWelcome hlink (by simp)
    · exact absurd (hplain hexplicit.2) hftps
    · have habsent : system.tlsLayer = .absent := by
        by_contra htls
        exact hftps (hplain htls)
      have hlayer : system.tlsLayer ≠ .connecting := by simp [habsent]
      exact haccounted.awaitWelcome hlink hlayer
  · have hprotocol := haccounted.tls.opened hopened htls
    have hpresent : system.tlsLayer ≠ .absent := by simp [htls]
    rw [if_neg hprotocol.1, if_pos ⟨hprotocol.2, hpresent⟩]
    have hconnected : system.link ≠ .connecting := by simp [hopened]
    have hlayer := haccounted.setTls .connected (by
      constructor <;> intro h
      · have hclosed : system.link = .closed := h
        rw [hopened] at hclosed
        cases hclosed
      · exact absurd h hconnected
      · intro hlayer
        cases hlayer)
    exact ⟨owed, hlayer.setControl hconnected _⟩

theorem Accounted.not_connect
    (haccounted : system.Accounted owed) {top : OpData} {rest : List OpData}
    (htop : system.operations = top :: rest) (hopId : top.opId ≠ .connect) :
    system.link ≠ .connecting := by
  intro hlink
  rcases (haccounted.connecting hlink).logon with ⟨logon, _, hlogon, hid, _⟩
  rw [htop] at hlogon
  cases hlogon
  exact hopId hid

theorem Accounted.cancel
    (haccounted : system.Accounted owed) : system.cancel.Balanced := by
  unfold FtpSystem.cancel
  split
  · exact ⟨owed, haccounted⟩
  · rename_i top rest htop
    split_ifs with hnone hconnect
    · exact ⟨owed, haccounted⟩
    · exact ⟨[], accounted_doClose system _⟩
    · have hlink := haccounted.not_connect htop hconnect
      exact ⟨owed, haccounted.setControl hlink _⟩

theorem Accounted.setAsyncRequestReply
    (haccounted : system.Accounted owed) {top : OpData}
    {request : RequestId} (reply : RequestReply)
    (hrequest : system.link = .connecting → request = .certificate) :
    (system.setAsyncRequestReply top request reply).Balanced := by
  have hcontrol : request ≠ .certificate → ∀ control,
      { system with control := control }.Balanced := by
    intro hother control
    have hlink : system.link ≠ .connecting :=
      fun hconnecting => hother (hrequest hconnecting)
    exact ⟨owed, haccounted.setControl hlink control⟩
  cases request with
  | fileexists =>
      simp only [FtpSystem.setAsyncRequestReply]
      split
      · cases reply with
        | rename =>
            exact ⟨owed, haccounted.sendAsyncRequest _ _
              fun hlink => absurd (hrequest hlink) (by simp)⟩
        | accept => exact hcontrol (by simp) _
        | refuse => exact hcontrol (by simp) _
        | skip => exact hcontrol (by simp) _
      · exact ⟨owed, haccounted⟩
  | interactiveLogin =>
      simp only [FtpSystem.setAsyncRequestReply]
      split_ifs
      · exact hcontrol (by simp) _
      · exact hcontrol (by simp) _
      · exact ⟨owed, haccounted⟩
  | certificate =>
      simp only [FtpSystem.setAsyncRequestReply]
      split_ifs
      · exact ⟨[], accounted_doClose system _⟩
      · exact ⟨owed, haccounted⟩
  | insecureConnection =>
      simp only [FtpSystem.setAsyncRequestReply]
      split_ifs
      · exact hcontrol (by simp) _
      · exact hcontrol (by simp) _
  | tlsNoResumption =>
      simp only [FtpSystem.setAsyncRequestReply]
      split_ifs
      · exact hcontrol (by simp) _
      · exact ⟨owed, haccounted⟩

theorem Accounted.callSetAsyncRequestReply
    (haccounted : system.Accounted owed) {reply : RequestReply}
    {following : FtpSystem}
    (hcall : system.callSetAsyncRequestReply reply = some following) :
    following.Balanced := by
  unfold FtpSystem.callSetAsyncRequestReply at hcall
  split at hcall
  · rename_i top rest request htop hlast
    simp only at hcall
    split_ifs at hcall with hnone
    cases hcall
    have hset := haccounted.setTopRequest .none system.lastRequest
      fun _ => Or.inl rfl
    refine hset.setAsyncRequestReply reply ?_
    intro hlink
    rcases (haccounted.connecting hlink).logon with
      ⟨logon, below, hlogon, _, hstate⟩
    rw [htop] at hlogon
    cases hlogon
    have hcertificate := hstate.resolve_left hnone
    rw [hlast] at hcertificate
    exact Option.some.inj hcertificate
  · cases hcall

theorem Accounted.serverLine
    (haccounted : system.Accounted owed) {line : WString}
    {following : FtpSystem}
    (hline : system.serverLine line = some following) :
    following.Accounted owed := by
  unfold FtpSystem.serverLine at hline
  split_ifs at hline with hopened
  split at hline
  · cases hline
  · rename_i tag rest howed
    rw [Option.map_eq_some_iff] at hline
    rcases hline with ⟨server, hnext, rfl⟩
    exact
      { skip_nonneg := haccounted.skip_nonneg
        skip_le := haccounted.skip_le
        replayed := replay_send haccounted.replayed hnext
        pending := haccounted.pending
        unlinked := haccounted.unlinked
        connecting := fun h =>
          let hconnecting := haccounted.connecting h
          ⟨hconnecting.pendingReplies, hconnecting.repliesToSkip,
            hconnecting.idle, hconnecting.logon⟩
        current := haccounted.current
        tls := ⟨haccounted.tls.closed, haccounted.tls.connecting,
          haccounted.tls.opened⟩ }

theorem handsToTop_nil (system : FtpSystem) : system.HandsToTop [] := by
  intro owner tag hmem
  cases hmem

theorem Accounted.event
    (haccounted : system.Accounted owed) {input : Input}
    {following : FtpSystem} {events : List FtpEvent}
    (hevent : system.event input = some (following, events)) :
    following.Balanced ∧ system.HandsToTop events := by
  cases input with
  | connect protocol =>
      simp only [FtpSystem.event] at hevent
      split_ifs at hevent with hguard
      cases hevent
      have hprotocol := haccounted.setProtocol hguard.2 protocol
      exact ⟨hprotocol.startOperation hguard.1 .connect, handsToTop_nil system⟩
  | start opId =>
      simp only [FtpSystem.event] at hevent
      split_ifs at hevent with hguard
      cases hevent
      exact ⟨haccounted.startOperation hguard.1 opId, handsToTop_nil system⟩
  | proceed answer => cases hevent
  | cancel =>
      cases hevent
      exact ⟨haccounted.cancel, handsToTop_nil system⟩
  | operationEnds errorCode =>
      simp only [FtpSystem.event] at hevent
      split at hevent
      · cases hevent
      · rename_i top rest htop
        split_ifs at hevent with hconnect
        cases hevent
        have hlink := haccounted.not_connect htop hconnect
        exact ⟨⟨owed, haccounted.setControl hlink _⟩, handsToTop_nil system⟩
  | wakeUp =>
      simp only [FtpSystem.event] at hevent
      split_ifs at hevent with hopened
      cases hevent
      have hlink : system.link ≠ .connecting := by simp [hopened]
      exact ⟨⟨owed, haccounted.setControl hlink _⟩, handsToTop_nil system⟩
  | onTimer =>
      simp only [FtpSystem.event] at hevent
      split_ifs at hevent with hopened
      cases hevent
      exact ⟨haccounted.onTimer hopened, handsToTop_nil system⟩
  | onConnect =>
      simp only [FtpSystem.event] at hevent
      split_ifs at hevent with hlink
      cases hevent
      exact ⟨haccounted.onConnect hlink, handsToTop_nil system⟩
  | onVerifyCert =>
      simp only [FtpSystem.event] at hevent
      split_ifs at hevent
      cases hevent
      exact ⟨⟨owed, haccounted.sendAsyncRequest _ _ fun _ => rfl⟩,
        handsToTop_nil system⟩
  | onResumptionRefused =>
      simp only [FtpSystem.event] at hevent
      split_ifs at hevent with hopened
      cases hevent
      refine ⟨⟨owed, haccounted.sendAsyncRequest _ _ ?_⟩,
        handsToTop_nil system⟩
      intro hlink
      rw [hopened] at hlink
      cases hlink
  | requestReply reply =>
      simp only [FtpSystem.event, Option.map_eq_some_iff, Prod.mk.injEq]
        at hevent
      rcases hevent with ⟨_, hcall, rfl, rfl⟩
      exact ⟨haccounted.callSetAsyncRequestReply hcall, handsToTop_nil system⟩
  | doClose errorCode =>
      cases hevent
      exact ⟨⟨[], accounted_doClose system _⟩, handsToTop_nil system⟩
  | serverLine line => cases hevent
  | receive =>
      simp only [FtpSystem.event] at hevent
      split at hevent
      · cases hevent
      · rename_i line tag rest hwire
        have hreceive := haccounted.receive hwire
        rw [Option.some.injEq] at hevent
        rwa [hevent] at hreceive

/-! ## Every step -/

variable {following : FtpSystem}

structure Invariant (system : FtpSystem) : Prop where
  balanced : system.Balanced
  owned : system.Owned

structure StepSound (system following : FtpSystem) (events : List FtpEvent) :
    Prop where
  balanced : following.Balanced
  kept : system.OwnersKept following
  finishes : system.Finishes following events
  handed : system.HandsToTop events

theorem resetOperation_hands_nothing
    (system : FtpSystem) (errorCode : Reply) (failure : TransferFailure)
    (owner : ℕ) (tag : Tag) :
    .handed owner tag ∉ (system.resetOperation errorCode failure).2 := by
  unfold FtpSystem.resetOperation
  cases system.operations with
  | nil => simp
  | cons operation rest =>
      cases rest with
      | nil => simp
      | cons below rest =>
          simp only
          split_ifs <;> simp

theorem proceed_hands_nothing
    {answer : Answer} {events : List FtpEvent}
    (hproceed : system.proceed answer = some (following, events)) :
    system.HandsToTop events := by
  intro owner tag hmem
  unfold FtpSystem.proceed at hproceed
  cases hcontrol : system.control with
  | idle => simp [hcontrol] at hproceed
  | sendNextCommand =>
      simp only [hcontrol, Option.map_eq_some_iff, Prod.mk.injEq] at hproceed
      rcases hproceed with ⟨_, _, _, rfl⟩
      cases hmem
  | resetOperation errorCode =>
      simp only [hcontrol] at hproceed
      cases answer with
      | reset failure =>
          simp only [Option.some.injEq] at hproceed
          have hnothing := system.resetOperation_hands_nothing errorCode
            failure owner tag
          rw [hproceed] at hnothing
          exact absurd hmem hnothing
      | perform | doConnect => cases hproceed
  | parseSubcommandResult prevResult =>
      simp only [hcontrol] at hproceed
      cases answer with
      | perform actions res =>
          simp only [Option.map_eq_some_iff, Prod.mk.injEq] at hproceed
          rcases hproceed with ⟨_, _, _, rfl⟩
          cases hmem
      | reset | doConnect => cases hproceed
  | parseResponse =>
      simp only [hcontrol] at hproceed
      cases answer with
      | perform actions res =>
          simp only [Option.map_eq_some_iff, Prod.mk.injEq] at hproceed
          rcases hproceed with ⟨_, _, _, rfl⟩
          cases hmem
      | reset | doConnect => cases hproceed

/-- One step keeps the accounts, and hands a reply to its owner only. -/
theorem Invariant.step
    (hinvariant : system.Invariant) {input : Input} {events : List FtpEvent}
    (hstep : system.step input = some (following, events)) :
    system.StepSound following events := by
  rcases hinvariant.balanced with ⟨owed, haccounted⟩
  have howned := hinvariant.owned
  have hidle : ∀ input, system.event input = some (following, events) →
      system.StepSound following events := by
    intro input hevent
    have haccount := haccounted.event hevent
    have howners := howned.event hevent
    exact ⟨haccount.1, howners.1, howners.2, haccount.2⟩
  cases input with
  | serverLine line =>
      simp only [FtpSystem.step, Option.map_eq_some_iff, Prod.mk.injEq]
        at hstep
      rcases hstep with ⟨written, hline, rfl, rfl⟩
      have hsame : ∃ server wire, written =
          { system with server := server, wire := wire } := by
        unfold FtpSystem.serverLine at hline
        split_ifs at hline
        split at hline
        · cases hline
        · rw [Option.map_eq_some_iff] at hline
          rcases hline with ⟨server, _, hfollowing⟩
          exact ⟨_, _, hfollowing.symm⟩
      have haccount := haccounted.serverLine hline
      rcases hsame with ⟨server, wire, rfl⟩
      exact ⟨⟨owed, haccount⟩, howned.kept_of_eq rfl rfl, finishes_nil _ _,
        handsToTop_nil system⟩
  | proceed answer =>
      have hproceed : system.proceed answer = some (following, events) :=
        hstep
      have howners := howned.proceed hproceed
      exact ⟨haccounted.proceed hproceed, howners.1, howners.2,
        proceed_hands_nothing hproceed⟩
  | connect | start | cancel | operationEnds | wakeUp | onTimer | onConnect
  | onVerifyCert | onResumptionRefused | requestReply | doClose | receive =>
      simp only [FtpSystem.step] at hstep
      split_ifs at hstep
      exact hidle _ hstep

def FinishedGone (outputs : List FtpEvent) (system : FtpSystem) : Prop :=
  ∀ owner, .finished owner ∈ outputs →
    owner < system.nextOwner ∧ owner ∉ system.owners

theorem StepSound.finishedGone
    {outputs events : List FtpEvent}
    (hsound : system.StepSound following events) (howned : system.Owned)
    (hgone : FinishedGone outputs system) :
    FinishedGone (outputs ++ events) following := by
  intro owner hmem
  rcases List.mem_append.mp hmem with hold | hnew
  · have howner := hgone owner hold
    refine ⟨lt_of_lt_of_le howner.1 hsound.kept.nextOwner, ?_⟩
    intro hstack
    rcases hsound.kept.owners owner hstack with hbefore | hfresh
    · exact howner.2 hbefore
    · omega
  · have hfinished := hsound.finishes owner hnew
    have hfresh := howned.fresh owner hfinished.1
    exact ⟨lt_of_lt_of_le hfresh hsound.kept.nextOwner, hfinished.2⟩

theorem initial_invariant : FtpSystem.initial.Invariant where
  balanced :=
    ⟨[],
      { skip_nonneg := le_refl 0
        skip_le := zero_le_one
        replayed := rfl
        pending := fun h => by cases h
        unlinked := fun _ => ⟨rfl, rfl⟩
        connecting := fun h => by cases h
        current := by simp
        tls := ⟨fun _ => rfl, fun h => (by cases h), fun h => (by cases h)⟩ }⟩
  owned := ⟨List.Pairwise.nil, by simp [FtpSystem.owners, FtpSystem.initial]⟩

/-- The accounts are right in every run. -/
theorem reachable_invariant
    {inputs : List Input} {outputs : List FtpEvent}
    (hreach : ftpControlSocket.Reaches inputs outputs system) :
    system.Invariant ∧ FinishedGone outputs system := by
  refine hreach.invariant
    (fun outputs system => system.Invariant ∧ FinishedGone outputs system)
    ?_ ?_
  · intro system hinitial
    have hsystem : system = FtpSystem.initial := hinitial
    rw [hsystem]
    refine ⟨initial_invariant, ?_⟩
    intro owner hmem
    cases hmem
  · intro outputs system input following events hinv _ hstep
    have hsound := hinv.1.step hstep
    exact ⟨⟨hsound.balanced, hsound.kept.owned⟩,
      hsound.finishedGone hinv.1.owned hinv.2⟩

end FtpSystem

/-- In every run the counters fit, and a reply that is handed to an operation
answers a command of the top-level operation that the operation on top of the
stack belongs to, which has not ended. -/
theorem replies_reach_their_operation
    {inputs : List FtpSystem.Input} {outputs : List FtpEvent}
    {system : FtpSystem}
    (hreach : ftpControlSocket.Reaches inputs outputs system) :
    0 ≤ system.repliesToSkip ∧
      system.repliesToSkip ≤ system.pendingReplies ∧
      ∀ input following events,
        system.step input = some (following, events) →
        ∀ owner tag, .handed owner tag ∈ events →
          tag = some owner ∧ system.topOwner = some owner ∧
            .finished owner ∉ outputs := by
  rcases FtpSystem.reachable_invariant hreach with ⟨hinvariant, hgone⟩
  rcases hinvariant.balanced with ⟨owed, haccounted⟩
  refine ⟨haccounted.skip_nonneg, haccounted.skip_le, ?_⟩
  intro input following events hstep owner tag hmem
  rcases (hinvariant.step hstep).handed owner tag hmem with ⟨htag, htop⟩
  refine ⟨htag, htop, ?_⟩
  intro hfinished
  have hstack : owner ∈ system.owners := by
    rw [FtpSystem.topOwner, ← List.head?_map] at htop
    exact List.mem_of_mem_head? htop
  exact (hgone owner hfinished).2 hstack

/-- The welcome of a server arrives at the logon. -/
theorem replies_reach_their_operation_welcome :
    let line : WString := ['2', '2', '0', ' ']
    let system : FtpSystem :=
      { FtpSystem.initial with
        protocol := .ftp
        operations := [⟨.connect, false, .none, 0⟩]
        link := .opened
        nextOwner := 1
        wire := [(line, some 0)] }
    0 ≤ system.repliesToSkip ∧
      system.repliesToSkip ≤ system.pendingReplies ∧
      system.topOwner = some 0 := by
  intro line system
  have hexec : ftpControlSocket.exec (fun _ _ => True) FtpSystem.initial
      [.connect .ftp, .proceed (.doConnect true), .onConnect,
        .serverLine line] = some (system, []) := rfl
  have hreach : ftpControlSocket.Reaches [] [] FtpSystem.initial :=
    .start rfl
  have hreplies := replies_reach_their_operation (hreach.exec hexec)
  have hreceive : ∃ following, system.step .receive =
      some (following, [.handed 0 (some 0)]) := ⟨_, rfl⟩
  rcases hreceive with ⟨following, hreceive⟩
  have hhanded := hreplies.2.2 .receive following _ hreceive 0 (some 0)
    List.mem_cons_self
  exact ⟨hreplies.1, hreplies.2.1, hhanded.2.1⟩

/-- In every run, once the socket has read all that the server has written,
the counters agree with the commands that the server has not answered, also
after cancelled operations.  Nothing waits for a reply that does not come. -/
theorem counters_resynchronised
    {inputs : List FtpSystem.Input} {outputs : List FtpEvent}
    {system : FtpSystem}
    (hreach : ftpControlSocket.Reaches inputs outputs system)
    (hopened : system.link = .opened) (hread : system.wire = []) :
    system.pendingReplies = system.server.owed.length ∧
      system.multilineResponseCode = system.server.code ∧
      (∀ tag ∈ system.server.owed.drop system.repliesToSkip.toNat,
        tag ≠ none ∧ tag = system.topOwner) ∧
      (system.server.owed = [] →
        system.repliesToSkip = 0 ∧ ∀ top rest actions res,
          system.operations = top :: rest →
          top.asyncRequestState ≠ .waiting →
          system.sendNextCommand (.perform actions res) =
            (system.performAll actions).map fun system =>
              system.afterSend res) := by
  rcases FtpSystem.reachable_invariant hreach with ⟨hinvariant, _⟩
  rcases hinvariant.balanced with ⟨owed, haccounted⟩
  have hreplayed := haccounted.replayed
  rw [hread] at hreplayed
  have hserver : ⟨system.multilineResponseCode, owed⟩ = system.server :=
    Option.some.inj hreplayed
  have hpending := haccounted.pending hopened
  rw [← hserver]
  refine ⟨hpending, rfl, haccounted.current, ?_⟩
  intro hnone
  have hlength : owed.length = 0 := congrArg List.length hnone
  have hskip : system.repliesToSkip = 0 := by
    have hnonneg := haccounted.skip_nonneg
    have hle := haccounted.skip_le
    rw [hpending, hlength] at hle
    exact le_antisymm hle hnonneg
  refine ⟨hskip, ?_⟩
  intro top rest actions res htop hwaiting
  unfold FtpSystem.sendNextCommand
  rw [htop]
  simp only [hwaiting, hskip, if_false, ne_eq, not_true_eq_false]

/-- The reply to the command of a cancelled operation is skipped, and the next
operation has sent its own command. -/
theorem counters_resynchronised_cancelled :
    let line (code : Char) : WString := [code, '0', '0', ' ']
    let sends : FtpSystem.Input :=
      .proceed (.perform [.sendCommand] Reply.wouldblock)
    let inputs : List FtpSystem.Input :=
      [.connect .ftp, .proceed (.doConnect true), .onConnect,
        .serverLine (line '2'), .receive, .proceed (.perform [] Reply.ok),
        .proceed (.reset .none), .start .list, sends, .cancel,
        .proceed (.reset .none), .start .list, sends, .serverLine (line '5'),
        .receive, sends]
    ∃ outputs system, ftpControlSocket.Reaches inputs outputs system ∧
      outputs = [.handed 0 (some 0), .finished 0, .resetEngine Reply.ok,
        .finished 1, .resetEngine Reply.canceled, .skipped (some 1)] ∧
      system.server.owed = [some 2] ∧
      system.pendingReplies = system.server.owed.length := by
  intro line sends inputs
  have hexec : ∃ outputs system, ftpControlSocket.exec (fun _ _ => True)
      FtpSystem.initial inputs = some (system, outputs) ∧
        outputs = [.handed 0 (some 0), .finished 0, .resetEngine Reply.ok,
          .finished 1, .resetEngine Reply.canceled, .skipped (some 1)] ∧
        system.link = .opened ∧ system.wire = [] ∧
        system.server.owed = [some 2] :=
    ⟨_, _, rfl, rfl, rfl, rfl, rfl⟩
  rcases hexec with ⟨outputs, system, hexec, houtputs, hopened, hread, howed⟩
  have hstart : ftpControlSocket.Reaches [] [] FtpSystem.initial := .start rfl
  have hreach := hstart.exec hexec
  exact ⟨outputs, system, hreach, houtputs, howed,
    (counters_resynchronised hreach hopened hread).1⟩

end TabFtp
