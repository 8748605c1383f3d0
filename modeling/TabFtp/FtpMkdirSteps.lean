import TabFtp.FtpMkdir

/-!
# Steps of the directory creation

While the operation is under way, its path is always the directory it has got
to with the pending segments behind it.  Going up moves a segment to the
pending ones, going down takes one away, so the number of replies that can
still come is bounded.
-/

namespace TabFtp

open LabelledRuns

namespace ServerPath

def segmentCount (path : ServerPath) : ℕ :=
  (path.data.map fun data => data.segments.length).getD 0

def Standing (path : ServerPath) : Prop :=
  ∃ data, path.data = some data ∧ Stands path.type data.segments

variable {path current : ServerPath} {segments : List WString}

theorem extend_some (type : ServerType) (pathPrefix : Option WString)
    (upper lower : List WString) :
    extend ⟨some ⟨upper, pathPrefix⟩, type⟩ lower =
      ⟨some ⟨upper ++ lower, pathPrefix⟩, type⟩ := by
  induction lower generalizing upper with
  | nil => simp [extend]
  | cons segment lower ih =>
      have hrest := ih (upper ++ [segment])
      rw [List.append_assoc, List.singleton_append] at hrest
      exact hrest

theorem Standing.extend (hstanding : current.Standing)
    (segments : List WString) :
    (current.extend segments).Standing ∧
      (current.extend segments).type = current.type ∧
      (current.extend segments).segmentCount =
        current.segmentCount + segments.length := by
  obtain ⟨data, type⟩ := current
  obtain ⟨⟨upper, pathPrefix⟩, rfl, hstands⟩ := hstanding
  rw [extend_some]
  refine ⟨⟨_, rfl, ?_⟩, rfl, List.length_append⟩
  rcases hstands with hroot | hupper
  · exact Or.inl hroot
  · exact Or.inr (by simp [hupper])

theorem parent_withSegment (htype : path.type ≠ .mvs)
    (hparent : path.hasParent = true) :
    path.makeParent.Standing ∧ path.makeParent.type = path.type ∧
      path.makeParent.withSegment path.getLastSegment = path := by
  obtain ⟨data, type⟩ := path
  cases data with
  | none => cases hparent
  | some data =>
      obtain ⟨upper, last, hlast, hstands⟩ := hasParent_iff.mp hparent
      obtain ⟨segments, pathPrefix⟩ := data
      simp only at hlast htype
      subst hlast
      have hkept : directoryPrefix type pathPrefix = pathPrefix :=
        if_neg htype
      have hsegment : getLastSegment ⟨some ⟨upper ++ [last], pathPrefix⟩,
          type⟩ = last := by
        simp [getLastSegment, hparent]
      rw [makeParent_concat hstands, hkept, hsegment]
      exact ⟨⟨_, rfl, hstands⟩, rfl, rfl⟩

theorem Standing.withSegment (hstanding : current.Standing)
    (htype : current.type ≠ .mvs) (segment : WString) :
    (current.withSegment segment).makeParent = current ∧
      (current.withSegment segment).getLastSegment = segment := by
  obtain ⟨data, type⟩ := current
  obtain ⟨⟨upper, pathPrefix⟩, rfl, hstands⟩ := hstanding
  have hkept : directoryPrefix type pathPrefix = pathPrefix :=
    if_neg htype
  change makeParent ⟨some ⟨upper ++ [segment], pathPrefix⟩, type⟩ = _ ∧ _
  have hparent : hasParent ⟨some ⟨upper ++ [segment], pathPrefix⟩, type⟩ =
      true := hasParent_iff.mpr ⟨upper, segment, rfl, hstands⟩
  rw [makeParent_concat hstands, hkept]
  refine ⟨rfl, ?_⟩
  change getLastSegment ⟨some ⟨upper ++ [segment], pathPrefix⟩, type⟩ = _
  simp [getLastSegment, hparent]

/-- `MakeParent` takes nothing but the last segment away. -/
def DropsOneSegment (type : ServerType) : Prop :=
  ∀ data, hasParent ⟨some data, type⟩ = true →
    makeParent ⟨some data, type⟩ =
      ⟨some { data with segments := data.segments.dropLast }, type⟩

theorem dropsOneSegment_iff (type : ServerType) :
    DropsOneSegment type ↔ type ≠ .mvs := by
  constructor
  · rintro hdrops rfl
    have hmvs := hdrops ⟨[['A'], ['B']], none⟩ rfl
    cases hmvs
  · intro htype data hparent
    simp [makeParent, hparent, htype]

/-- The path is the current directory with the pending segments, of which the
last one comes first. -/
structure Leads (path current : ServerPath) (segments : List WString) :
    Prop where
  type : current.type ≠ .mvs
  standing : current.Standing
  path_eq : path = current.extend segments.reverse
  pending : segments ≠ []

theorem Leads.segmentCount (hleads : Leads path current segments) :
    path.segmentCount = current.segmentCount + segments.length := by
  rw [hleads.path_eq, (hleads.standing.extend _).2.2, List.length_reverse]

theorem Leads.start (htype : path.type ≠ .mvs)
    (hparent : path.hasParent = true) :
    Leads path path.makeParent [path.getLastSegment] := by
  obtain ⟨hstanding, hsame, hback⟩ := parent_withSegment htype hparent
  exact ⟨by rwa [hsame], hstanding, hback.symm, List.cons_ne_nil _ _⟩

theorem Leads.up (hleads : Leads path current segments)
    (hparent : current.hasParent = true) :
    Leads path current.makeParent (segments ++ [current.getLastSegment]) ∧
      current.segmentCount = current.makeParent.segmentCount + 1 := by
  obtain ⟨hstanding, hsame, hback⟩ :=
    parent_withSegment hleads.type hparent
  have hcount := (hstanding.extend [current.getLastSegment]).2.2
  have hextend : current.makeParent.extend [current.getLastSegment] =
      current := hback
  rw [hextend] at hcount
  refine ⟨⟨by rw [hsame]; exact hleads.type, hstanding, ?_,
    List.append_ne_nil_of_right_ne_nil _ (List.cons_ne_nil _ _)⟩, hcount⟩
  rw [List.reverse_append, List.reverse_singleton, List.singleton_append]
  change path = (current.makeParent.withSegment
    current.getLastSegment).extend segments.reverse
  rw [hback]
  exact hleads.path_eq

theorem Leads.down {segment : WString}
    (hleads : Leads path current (segments ++ [segment]))
    (hpending : segments ≠ []) :
    Leads path (current.withSegment segment) segments := by
  obtain ⟨hstanding, hsame, _⟩ := hleads.standing.extend [segment]
  refine ⟨?_, hstanding, ?_, hpending⟩
  · change (current.extend [segment]).type ≠ _
    rw [hsame]
    exact hleads.type
  · have hpath := hleads.path_eq
    rw [List.reverse_append, List.reverse_singleton,
      List.singleton_append] at hpath
    exact hpath

theorem Leads.last {segment : WString}
    (hleads : Leads path current [segment]) :
    path.makeParent = current ∧ path.getLastSegment = segment := by
  have hpath : path = current.withSegment segment := hleads.path_eq
  rw [hpath]
  exact hleads.standing.withSegment hleads.type segment

end ServerPath

open ServerPath

def answeredCount (events : List MkdirEvent) : ℕ :=
  events.countP fun event =>
    match event with
    | .answered _ _ => true
    | _ => false

theorem answeredCount_append (events more : List MkdirEvent) :
    answeredCount (events ++ more) =
      answeredCount events + answeredCount more :=
  List.countP_append ..

namespace MkdirOperation

variable {op following : MkdirOperation} {directory : ServerPath}

/-- What the state of the operation says about its path and about the
directory that the server is in. -/
def Tracks (op : MkdirOperation) (directory : ServerPath) : Prop :=
  match op.opState with
  | .init => op.segments = [] ∧
      (op.currentPath.empty = true ∨ directory = op.currentPath)
  | .findparent | .cwdsub => Leads op.path op.currentMkdPath op.segments
  | .mkdsub => Leads op.path op.currentMkdPath op.segments ∧
      directory = op.currentMkdPath
  | .tryfull => True

def repliesLeft (op : MkdirOperation) : ℕ :=
  match op.opState with
  | .init => 3 * op.path.segmentCount + 1
  | .findparent => op.currentMkdPath.segmentCount +
      2 * (op.currentMkdPath.segmentCount + op.segments.length)
  | .mkdsub => 2 * op.segments.length - 1
  | .cwdsub => 2 * op.segments.length
  | .tryfull => 1

def nextCommand (op : MkdirOperation) : Option MkdirCommand :=
  match op.opState with
  | .init => none
  | .findparent | .cwdsub => some (.cwd op.currentMkdPath)
  | .mkdsub => some (.mkd op.currentMkdPath op.back)
  | .tryfull => some (.mkdFull op.path)

theorem Tracks.repliesLeft_pos (htracks : op.Tracks directory) :
    1 ≤ op.repliesLeft := by
  obtain ⟨opState, path, currentMkdPath, commonParent, segments,
    currentPath⟩ := op
  have hpending : ∀ {current : ServerPath}, Leads path current segments →
      1 ≤ segments.length :=
    fun hleads => List.length_pos_iff.mpr hleads.pending
  unfold repliesLeft
  cases opState with
  | init => exact Nat.le_add_left _ _
  | findparent =>
      have hone := hpending htracks
      dsimp only
      omega
  | mkdsub =>
      have hone := hpending htracks.1
      dsimp only
      omega
  | cwdsub =>
      have hone := hpending htracks
      dsimp only
      omega
  | tryfull => exact le_rfl

/-- What `Send` can do. -/
inductive SendEffect (op : MkdirOperation) (directory : ServerPath) :
    MkdirOutcome → Prop
  | there : op.opState = .init → op.alreadyThere = true →
      SendEffect op directory (op.finish Reply.ok)
  | begins {following : MkdirOperation} :
      op.opState = .init → following.opState ≠ .init →
      following.path = op.path → following.Tracks directory →
      following.repliesLeft ≤ op.repliesLeft →
      SendEffect op directory following.goOn
  | sends {following : MkdirOperation} {command : MkdirCommand} :
      following.opState ≠ .init →
      following.path = op.path → following.Tracks directory →
      following.repliesLeft = op.repliesLeft →
      following.nextCommand = some command →
      SendEffect op directory
        ⟨following, some command, [.sent command], Reply.wouldblock⟩
  | fails {following : MkdirOperation} :
      following.path = op.path →
      SendEffect op directory (following.finish Reply.error)

theorem sendInit_effect (hinit : op.opState = .init)
    (htracks : op.Tracks directory) (htype : op.path.type ≠ .mvs) :
    SendEffect op directory op.sendInit := by
  have hstart : op.segments = [] ∧
      (op.currentPath.empty = true ∨ directory = op.currentPath) := by
    unfold Tracks at htracks
    rw [hinit] at htracks
    exact htracks
  have hleft : op.repliesLeft = 3 * op.path.segmentCount + 1 := by
    unfold repliesLeft
    rw [hinit]
  unfold sendInit
  by_cases hthere : op.alreadyThere = true
  · rw [if_pos hthere]
    exact .there hinit hthere
  · rw [if_neg hthere]
    by_cases hparent : op.path.hasParent = true
    · rw [if_neg (by rw [hparent]; exact Bool.false_ne_true)]
      have hleads := Leads.start htype hparent
      have hcount := hleads.segmentCount
      rw [List.length_singleton] at hcount
      rw [hstart.1, List.nil_append]
      by_cases hsame : op.path.makeParent.same op.currentPath = true
      · rw [if_pos hsame]
        have heq := (same_iff _ _).mp hsame
        refine .begins hinit (by intro h; cases h) rfl ⟨hleads, ?_⟩ ?_
        · obtain ⟨data, hdata, _⟩ := hleads.standing
          rcases hstart.2 with hempty | hdirectory
          · rw [← heq] at hempty
            simp [ServerPath.empty, hdata] at hempty
          · exact hdirectory.trans heq.symm
        · rw [hleft]
          change 2 * 1 - 1 ≤ _
          omega
      · rw [if_neg hsame]
        refine .begins hinit (by intro h; cases h) rfl hleads ?_
        rw [hleft]
        change op.path.makeParent.segmentCount +
          2 * (op.path.makeParent.segmentCount + 1) ≤ _
        omega
    · rw [if_pos (by simpa using hparent)]
      refine .begins hinit (by intro h; cases h) rfl trivial ?_
      rw [hleft]
      exact Nat.le_add_left _ _

theorem sendCommand_effect {command : MkdirCommand}
    (hpath : following.path = op.path)
    (hinit : following.opState ≠ .init)
    (htracks : following.Tracks directory)
    (hleft : following.repliesLeft = op.repliesLeft)
    (hcommand : following.nextCommand = some command) (converted : Bool) :
    SendEffect op directory (following.sendCommand converted command) := by
  unfold sendCommand
  cases converted with
  | true => exact .sends hinit hpath htracks hleft hcommand
  | false => exact .fails hpath

theorem send_effect (htracks : op.Tracks directory)
    (htype : op.path.type ≠ .mvs) (converted : Bool) :
    SendEffect op directory (op.send converted) := by
  obtain ⟨opState, path, currentMkdPath, commonParent, segments,
    currentPath⟩ := op
  cases opState with
  | init => exact sendInit_effect rfl htracks htype
  | findparent =>
      refine @sendCommand_effect _ ⟨.findparent, path, currentMkdPath,
        commonParent, segments, currentPath.clear⟩ directory _ ?_ nofun
        htracks ?_ rfl converted
      · rfl
      · rfl
  | cwdsub =>
      refine @sendCommand_effect _ ⟨.cwdsub, path, currentMkdPath,
        commonParent, segments, currentPath.clear⟩ directory _ ?_ nofun
        htracks ?_ rfl converted
      · rfl
      · rfl
  | mkdsub =>
      exact @sendCommand_effect _ ⟨.mkdsub, path, currentMkdPath,
        commonParent, segments, currentPath⟩ directory _ rfl nofun htracks rfl
        rfl converted
  | tryfull =>
      exact @sendCommand_effect _ ⟨.tryfull, path, currentMkdPath,
        commonParent, segments, currentPath⟩ directory _ rfl nofun htracks rfl
        rfl converted

/-! ## Replies -/

def Creates (path : ServerPath) (command : MkdirCommand)
    (response : WString) : Prop :=
  command = .mkd path.makeParent path.getLastSegment ∧
      (accepted response = true ∨
        isAlreadyExistsResponse response path = true) ∨
    command = .mkdFull path ∧ accepted response = true

/-- What `ParseResponse` can do with the reply to a command. -/
inductive ReplyEffect (op : MkdirOperation) (command : MkdirCommand)
    (response : WString) (directory : ServerPath) : MkdirOutcome → Prop
  | goesOn {following : MkdirOperation} {events : List MkdirEvent} :
      answeredCount events = 0 →
      following.opState ≠ .init → following.path = op.path →
      following.Tracks directory →
      following.repliesLeft + 1 ≤ op.repliesLeft →
      ReplyEffect op command response directory
        ⟨following, none, events, Reply.continued⟩
  | succeeds {following : MkdirOperation} {events : List MkdirEvent} :
      answeredCount events = 0 → Creates op.path command response →
      ReplyEffect op command response directory
        ⟨following, none, events, Reply.ok⟩
  | fails {result : Reply} : result.has Reply.error = true →
      ReplyEffect op command response directory (op.finish result)

theorem parseFindparent_effect {command : MkdirCommand} {response : WString}
    {current : ServerPath} (hstate : op.opState = .findparent)
    (htracks : op.Tracks current)
    (hmoves : accepted response = true → directory = op.currentMkdPath) :
    ReplyEffect op command response directory
      (op.parseFindparent response) := by
  obtain ⟨opState, path, currentMkdPath, commonParent, segments,
    currentPath⟩ := op
  cases hstate
  have hleads : Leads path currentMkdPath segments := htracks
  have hpending := List.length_pos_iff.mpr hleads.pending
  unfold parseFindparent
  dsimp only
  by_cases haccepted : accepted response = true
  · rw [if_pos haccepted]
    refine .goesOn rfl nofun rfl ⟨hleads, hmoves haccepted⟩ ?_
    change 2 * segments.length - 1 + 1 ≤ currentMkdPath.segmentCount +
      2 * (currentMkdPath.segmentCount + segments.length)
    omega
  · have hfull : ReplyEffect
        ⟨.findparent, path, currentMkdPath, commonParent, segments,
          currentPath⟩ command response directory
        (goOn ⟨.tryfull, path, currentMkdPath, commonParent, segments,
          currentPath⟩) := by
      refine .goesOn rfl nofun rfl trivial ?_
      change 1 + 1 ≤ currentMkdPath.segmentCount +
        2 * (currentMkdPath.segmentCount + segments.length)
      omega
    rw [if_neg haccepted]
    by_cases hcommon : currentMkdPath.same commonParent = true
    · rw [if_pos hcommon]
      exact hfull
    · rw [if_neg hcommon]
      by_cases hparent : currentMkdPath.hasParent = true
      · rw [if_pos hparent]
        rcases hleads.up hparent with ⟨hup, hcount⟩
        refine .goesOn rfl nofun rfl hup ?_
        change currentMkdPath.makeParent.segmentCount +
          2 * (currentMkdPath.makeParent.segmentCount +
            (segments ++ [currentMkdPath.getLastSegment]).length) + 1 ≤
          currentMkdPath.segmentCount +
            2 * (currentMkdPath.segmentCount + segments.length)
        rw [List.length_append, List.length_singleton]
        omega
      · rw [if_neg hparent]
        exact hfull

theorem segmentDone_effect {response : WString} {current : ServerPath}
    (hstate : op.opState = .mkdsub) (htracks : op.Tracks current)
    (hexists : accepted response = true ∨
      isAlreadyExistsResponse response op.path = true) :
    ReplyEffect op (.mkd op.currentMkdPath op.back) response directory
      op.segmentDone := by
  obtain ⟨opState, path, currentMkdPath, commonParent, segments,
    currentPath⟩ := op
  cases hstate
  have hleads : Leads path currentMkdPath segments := htracks.1
  obtain ⟨rest, segment, rfl⟩ :=
    (List.eq_nil_or_concat' segments).resolve_left hleads.pending
  have hback : back ⟨.mkdsub, path, currentMkdPath, commonParent,
      rest ++ [segment], currentPath⟩ = segment := by
    simp [back]
  unfold segmentDone
  rw [hback]
  dsimp only
  rw [List.dropLast_concat]
  cases rest with
  | nil =>
      rcases hleads.last with ⟨hparent, hlast⟩
      rw [List.isEmpty_nil, if_pos rfl]
      refine .succeeds rfl (Or.inl ⟨?_, hexists⟩)
      rw [hparent, hlast]
  | cons first rest =>
      rw [if_neg (by simp)]
      refine .goesOn rfl nofun rfl (hleads.down (List.cons_ne_nil _ _)) ?_
      change 2 * (first :: rest).length + 1 ≤
        2 * (first :: rest ++ [segment]).length - 1
      rw [List.length_append, List.length_singleton]
      omega

theorem parseMkdsub_effect {response : WString} {current : ServerPath}
    (hstate : op.opState = .mkdsub) (htracks : op.Tracks current)
    (cached : Option Bool) :
    ReplyEffect op (.mkd op.currentMkdPath op.back) response directory
      (op.parseMkdsub response cached) := by
  unfold parseMkdsub
  by_cases hempty : op.segments.isEmpty = true
  · rw [if_pos hempty]
    exact .fails rfl
  · rw [if_neg hempty]
    by_cases haccepted : accepted response = true
    · rw [if_pos haccepted]
      exact segmentDone_effect hstate htracks (Or.inl haccepted)
    · rw [if_neg haccepted]
      by_cases hexists : isAlreadyExistsResponse response op.path = true
      · rw [if_neg (by rw [hexists]; exact Bool.false_ne_true)]
        by_cases hfile : cached = some false
        · rw [if_pos hfile]
          exact .fails rfl
        · rw [if_neg hfile]
          exact segmentDone_effect hstate htracks (Or.inr hexists)
      · rw [if_pos (by simpa using hexists)]
        exact .fails rfl

theorem parseResponse_effect {command : MkdirCommand} {response : WString}
    {current : ServerPath} (htracks : op.Tracks current)
    (hcommand : op.nextCommand = some command)
    (hmoves : ∀ target, command = .cwd target → accepted response = true →
      directory = target) (cached : Option Bool) :
    ReplyEffect op command response directory
      (op.parseResponse response cached) := by
  cases hstate : op.opState with
  | init =>
      unfold nextCommand at hcommand
      rw [hstate] at hcommand
      cases hcommand
  | findparent =>
      unfold nextCommand at hcommand
      rw [hstate] at hcommand
      unfold parseResponse
      rw [hstate]
      exact parseFindparent_effect hstate htracks
        (hmoves _ (Option.some.inj hcommand).symm)
  | mkdsub =>
      unfold nextCommand at hcommand
      rw [hstate] at hcommand
      cases hcommand
      unfold parseResponse
      rw [hstate]
      exact parseMkdsub_effect hstate htracks cached
  | cwdsub =>
      obtain ⟨opState, path, currentMkdPath, commonParent, segments,
        currentPath⟩ := op
      cases hstate
      cases hcommand
      have hleads : Leads path currentMkdPath segments := htracks
      have hpending := List.length_pos_iff.mpr hleads.pending
      unfold parseResponse
      dsimp only
      by_cases haccepted : accepted response = true
      · rw [if_pos haccepted]
        refine .goesOn rfl nofun rfl ⟨hleads, hmoves _ rfl haccepted⟩ ?_
        change 2 * segments.length - 1 + 1 ≤ 2 * segments.length
        omega
      · rw [if_neg haccepted]
        refine .goesOn rfl nofun rfl trivial ?_
        change 1 + 1 ≤ 2 * segments.length
        omega
  | tryfull =>
      unfold nextCommand at hcommand
      rw [hstate] at hcommand
      cases hcommand
      unfold parseResponse
      rw [hstate]
      by_cases haccepted : accepted response = true
      · simp only [if_pos haccepted]
        exact .succeeds rfl (Or.inr ⟨rfl, haccepted⟩)
      · simp only [if_neg haccepted]
        exact .fails rfl

end MkdirOperation

end TabFtp
