import TabFtp.ProxyTransfers

/-!
# Transfers between servers that do not share a file

As long as no two calls in flight have the same temporary file, the file of a
download is written by nobody else, and the file of an upload is left alone
until the upload has ended.
-/

namespace TabFtp

variable {temporary : TemporaryFiles}

/-- The temporary file of a call. -/
def ProxyCall.file (temporary : TemporaryFiles) (call : ProxyCall) : ℕ :=
  temporary.resolve (call.fullPath temporary)

theorem ProxyCall.localName_downloadItem (temporary : TemporaryFiles)
    (call : ProxyCall) :
    (call.downloadItem temporary).localName = call.fullPath temporary := by
  have htarget :
      (call.downloadItem temporary).targetOrSource = call.fileName := by
    unfold ProxyCall.downloadItem FileItem.targetOrSource
      FileItem.setPriorityRaw FileItem.create
    cases hname : call.fileName with
    | nil => rfl
    | cons char rest => rfl
  have hflag :
      TransferFlags.has TransferFlags.download TransferFlags.download = true := by
    decide
  have hdownload : (call.downloadItem temporary).download = true := hflag
  unfold FileItem.localName FileItem.localFile
  rw [if_pos hdownload, htarget]
  rfl

theorem ProxyCall.localName_uploadItem (temporary : TemporaryFiles)
    (call : ProxyCall) :
    (call.uploadItem temporary).localName = call.fullPath temporary := by
  have hflag : ¬ TransferFlags.has 0 TransferFlags.download = true := by
    decide
  have hupload : ¬ (call.uploadItem temporary).download = true := hflag
  unfold FileItem.localName FileItem.localFile
  rw [if_neg hupload]
  rfl

namespace ProxyTransfers

variable {state final : ProxyTransfers} {transfer : Transfer} {id : ℕ}

def Holds (temporary : TemporaryFiles) (files : ℕ → Option (List UInt8))
    (transfer : Transfer) : Prop :=
  match transfer.phase with
  | .downloadQueued => True
  | .downloading position =>
      files (transfer.call.file temporary) = some transfer.received ∧
        position = transfer.received.length
  | .uploadQueued | .uploading =>
      files (transfer.call.file temporary) = some transfer.received

/-- The calls in flight have different temporary files, each with what has
been received for the call. -/
structure Apart (temporary : TemporaryFiles) (state : ProxyTransfers) :
    Prop where
  unique : UniqueKeys.Unique Transfer.id state.transfers
  numbered : ∀ transfer ∈ state.transfers, transfer.id < state.nextId
  files : UniqueKeys.Unique (fun transfer => transfer.call.file temporary)
    state.transfers
  holds : ∀ transfer ∈ state.transfers,
    Holds temporary state.files transfer

theorem find_mem (hfind : state.find id = some transfer) :
    transfer ∈ state.transfers ∧ transfer.id = id := by
  unfold find at hfind
  have hid := List.find?_some hfind
  exact ⟨List.mem_of_find?_eq_some hfind, of_decide_eq_true hid⟩

theorem findInPhase_mem {phase : Phase}
    (hfind : state.findInPhase id phase = some transfer) :
    transfer ∈ state.transfers ∧ transfer.phase = phase := by
  obtain ⟨hfound, hphase⟩ := Option.filter_eq_some_iff.mp hfind
  exact ⟨(find_mem hfound).1, of_decide_eq_true hphase⟩

theorem findDownloading_mem {position : ℕ}
    (hfind : state.findDownloading id = some (transfer, position)) :
    transfer ∈ state.transfers ∧ transfer.phase = .downloading position := by
  unfold findDownloading at hfind
  split at hfind
  · cases hfind
  · rename_i found hfound
    split at hfind
    · rename_i place hphase
      cases hfind
      exact ⟨(find_mem hfound).1, hphase⟩
    · cases hfind

theorem Apart.change (hapart : state.Apart temporary)
    (hmem : transfer ∈ state.transfers) {change : Transfer → Transfer}
    (hfinal : final.transfers =
      UniqueKeys.write Transfer.id transfer.id change state.transfers)
    (hnext : final.nextId = state.nextId)
    (hid : ∀ other, (change other).id = other.id)
    (hcall : ∀ other, (change other).call = other.call)
    (hothers : ∀ file, file ≠ transfer.call.file temporary →
      final.files file = state.files file)
    (hholds : Holds temporary final.files (change transfer)) :
    final.Apart temporary := by
  have hwritten : ∀ other, other ∈ final.transfers ↔
      other = change transfer ∨
        other ∈ state.transfers ∧ other.id ≠ transfer.id := by
    intro other
    rw [hfinal]
    exact UniqueKeys.mem_write_iff hapart.unique hmem
  have hkept : ∀ other : Transfer,
      (if other.id = transfer.id then change other else other).id =
        other.id ∧
      (if other.id = transfer.id then change other else other).call =
        other.call := by
    intro other
    split
    · exact ⟨hid other, hcall other⟩
    · exact ⟨rfl, rfl⟩
  constructor
  · rw [hfinal]
    exact hapart.unique.map fun other _ => (hkept other).1
  · intro other hother
    rw [hnext]
    rcases (hwritten other).mp hother with rfl | ⟨hold, _⟩
    · rw [hid]
      exact hapart.numbered transfer hmem
    · exact hapart.numbered other hold
  · rw [hfinal]
    apply hapart.files.map
    intro other _
    rw [(hkept other).2]
  · intro other hother
    rcases (hwritten other).mp hother with rfl | ⟨hold, hne⟩
    · exact hholds
    · have hfile : other.call.file temporary ≠
          transfer.call.file temporary := by
        intro heq
        apply hne
        rw [hapart.files.eq_of_key hold hmem heq]
      have hsame := hapart.holds other hold
      unfold Holds at hsame ⊢
      rw [hothers _ hfile]
      exact hsame

theorem writeFile_of_ne {file other : ℕ} (content : Option (List UInt8))
    (hne : other ≠ file) :
    (state.writeFile file content).files other = state.files other :=
  Function.update_of_ne hne _ _

theorem Apart.startDownload (hapart : state.Apart temporary)
    (hmem : transfer ∈ state.transfers) {overwrite : Bool}
    (hown : overwrite = true ∨
      state.files (transfer.call.file temporary) = none ∨
      state.files (transfer.call.file temporary) = some transfer.received) :
    (state.startDownload temporary transfer overwrite).Apart temporary := by
  unfold ProxyTransfers.startDownload
  simp only
  rw [ProxyCall.localName_downloadItem]
  split
  · rename_i content hcontent
    have hfile : state.files (transfer.call.file temporary) = some content :=
      hcontent
    have hreceived : content = transfer.received := by
      rcases hown with hoverwrite | hnone | hsame
      · cases hoverwrite
      · rw [hfile] at hnone
        cases hnone
      · rw [hfile] at hsame
        exact Option.some.inj hsame
    apply hapart.change hmem
    · rfl
    · rfl
    · exact fun _ => rfl
    · exact fun _ => rfl
    · exact fun _ _ => rfl
    · exact ⟨hreceived ▸ hfile, congrArg List.length hreceived⟩
  · apply hapart.change hmem
    · rfl
    · rfl
    · exact fun _ => rfl
    · exact fun _ => rfl
    · exact fun file hne => writeFile_of_ne _ hne
    · exact ⟨Function.update_self _ _ _, rfl⟩

theorem writeAt_end (content bytes : List UInt8) :
    writeAt content content.length bytes = content ++ bytes := by
  unfold writeAt
  simp

theorem Apart.receive (hapart : state.Apart temporary)
    (hmem : transfer ∈ state.transfers) {position : ℕ}
    (hphase : transfer.phase = .downloading position) (bytes : List UInt8) :
    (state.receive temporary transfer position bytes).Apart temporary := by
  have hholds := hapart.holds transfer hmem
  unfold Holds at hholds
  rw [hphase] at hholds
  obtain ⟨hfile, hposition⟩ := hholds
  unfold ProxyTransfers.receive
  simp only
  rw [ProxyCall.localName_downloadItem]
  apply hapart.change hmem
  · rfl
  · rfl
  · exact fun _ => rfl
  · exact fun _ => rfl
  · exact fun file hne => writeFile_of_ne _ hne
  · constructor
    · refine (Function.update_self _ _ _).trans ?_
      have hfile' : state.files (temporary.resolve
          (transfer.call.fullPath temporary)) = some transfer.received := hfile
      rw [hfile', hposition, Option.map_some, writeAt_end]
    · rw [hposition, List.length_append]

theorem Apart.setPhase (hapart : state.Apart temporary)
    (hmem : transfer ∈ state.transfers) {phase : Phase}
    (hholds : Holds temporary state.files { transfer with phase := phase }) :
    (state.setPhase transfer phase).Apart temporary := by
  apply hapart.change hmem
  · rfl
  · rfl
  · exact fun _ => rfl
  · exact fun _ => rfl
  · exact fun _ _ => rfl
  · exact hholds

theorem Apart.forget (hapart : state.Apart temporary)
    (hfinal : final.transfers = (state.forget id).transfers)
    (hnext : final.nextId = state.nextId)
    (hothers : ∀ other ∈ state.transfers, other.id ≠ id →
      final.files (other.call.file temporary) =
        state.files (other.call.file temporary)) :
    final.Apart temporary := by
  constructor
  · rw [hfinal]
    exact hapart.unique.filter _
  · intro other hother
    rw [hfinal] at hother
    rw [hnext]
    exact hapart.numbered other (List.mem_of_mem_filter hother)
  · rw [hfinal]
    exact hapart.files.filter _
  · intro other hother
    rw [hfinal] at hother
    obtain ⟨hold, hkept⟩ := List.mem_filter.mp hother
    have hne : other.id ≠ id := by
      intro heq
      rw [decide_eq_true heq] at hkept
      exact absurd hkept (by decide)
    have hsame := hapart.holds other hold
    unfold Holds at hsame ⊢
    rw [hothers other hold hne]
    exact hsame

theorem Apart.removeTemporary (hapart : state.Apart temporary)
    (hmem : transfer ∈ state.transfers) (removable : Bool) :
    ((state.removeTemporary temporary transfer.call removable).forget
      transfer.id).Apart temporary := by
  unfold ProxyTransfers.removeTemporary
  split
  · apply hapart.forget
    · rfl
    · rfl
    · intro other hother hne
      apply writeFile_of_ne
      intro heq
      apply hne
      rw [hapart.files.eq_of_key hother hmem heq]
  · exact hapart.forget rfl rfl fun _ _ _ => rfl

theorem Apart.insertItem (hapart : state.Apart temporary)
    {call : ProxyCall} {phase : Phase} {received : List UInt8}
    (hnew : ∀ other ∈ state.transfers,
      other.call.file temporary ≠ call.file temporary)
    (hholds : Holds temporary state.files
      ⟨state.nextId, call, phase, received⟩) :
    (state.insertItem call phase received).Apart temporary := by
  constructor
  · apply hapart.unique.append_singleton
    intro other hother
    exact (hapart.numbered other hother).ne
  · intro other hother
    rcases List.mem_append.mp hother with hold | hlast
    · exact Nat.lt_succ_of_lt (hapart.numbered other hold)
    · rw [List.mem_singleton.mp hlast]
      exact Nat.lt_succ_self _
  · exact hapart.files.append_singleton hnew
  · intro other hother
    rcases List.mem_append.mp hother with hold | hlast
    · exact hapart.holds other hold
    · rw [List.mem_singleton.mp hlast]
      exact hholds

theorem Apart.withEnded (hapart : state.Apart temporary)
    (ended : List EndedItem) :
    Apart temporary { state with ended := ended } :=
  ⟨hapart.unique, hapart.numbered, hapart.files, hapart.holds⟩

theorem Apart.requeueFileItem (hapart : state.Apart temporary)
    {item : EndedItem}
    (hnew : ∀ other ∈ state.transfers,
      other.call.file temporary ≠ item.call.file temporary)
    (hfile : item.upload = true →
      state.files (item.call.file temporary) = none ∨
        state.files (item.call.file temporary) = some item.received) :
    (state.requeueFileItem temporary item).Apart temporary := by
  unfold ProxyTransfers.requeueFileItem
  simp only
  rw [ProxyCall.localName_uploadItem]
  split
  · rename_i hupload
    split
    · rename_i hthere
      apply hapart.insertItem hnew
      refine (hfile hupload).resolve_left ?_
      intro hnone
      have hmissing : state.files (temporary.resolve
          (item.call.fullPath temporary)) = none := hnone
      rw [hmissing] at hthere
      cases hthere
    · exact hapart
  · exact hapart.insertItem hnew trivial

/-! ## Every run -/

/-- A call has a temporary file that no call in flight has, also one that is
queued again, and an upload that is queued again finds what it has read.  A
download that does not go on with what it has received itself overwrites the
file that it finds. -/
def Allowed (temporary : TemporaryFiles) (state : ProxyTransfers) :
    Request → Prop
  | .queueProxyTransfer call => ∀ other ∈ state.transfers,
      other.call.file temporary ≠ call.file temporary
  | .startDownload id overwrite => ∀ transfer ∈ state.transfers,
      transfer.id = id → overwrite = true ∨
        state.files (transfer.call.file temporary) = none ∨
        state.files (transfer.call.file temporary) = some transfer.received
  | .requeue index => ∀ item ∈ state.ended[index]?,
      (∀ other ∈ state.transfers,
        other.call.file temporary ≠ item.call.file temporary) ∧
      (item.upload = true →
        state.files (item.call.file temporary) = none ∨
          state.files (item.call.file temporary) = some item.received)
  | _ => True

instance (temporary : TemporaryFiles) (state : ProxyTransfers)
    (request : Request) : Decidable (Allowed temporary state request) := by
  cases request <;> unfold Allowed <;> infer_instance

/-- One step that meets the condition keeps the files apart, and an upload
reads what its call has received. -/
theorem step_apart (hapart : state.Apart temporary) {request : Request}
    (hallowed : Allowed temporary state request) {following : ProxyTransfers}
    {readings : List Reading}
    (hstep : step temporary state request = some (following, readings)) :
    following.Apart temporary ∧
      ∀ reading ∈ readings,
        reading.content = some reading.transfer.received := by
  cases request with
  | queueProxyTransfer call =>
      cases hstep
      exact ⟨hapart.insertItem hallowed trivial, by simp⟩
  | startDownload id overwrite =>
      obtain ⟨transfer, hfind, heq⟩ := Option.map_eq_some_iff.mp hstep
      cases heq
      obtain ⟨hfound, _⟩ := Option.filter_eq_some_iff.mp hfind
      obtain ⟨hmem, hid⟩ := find_mem hfound
      exact ⟨hapart.startDownload hmem (hallowed transfer hmem hid), by simp⟩
  | receive id bytes =>
      obtain ⟨⟨transfer, position⟩, hfind, heq⟩ :=
        Option.map_eq_some_iff.mp hstep
      cases heq
      obtain ⟨hmem, hphase⟩ := findDownloading_mem hfind
      exact ⟨hapart.receive hmem hphase bytes, by simp⟩
  | retryDownload id =>
      obtain ⟨⟨transfer, position⟩, hfind, heq⟩ :=
        Option.map_eq_some_iff.mp hstep
      cases heq
      obtain ⟨hmem, _⟩ := findDownloading_mem hfind
      exact ⟨hapart.setPhase hmem trivial, by simp⟩
  | succeedDownload id =>
      obtain ⟨⟨transfer, position⟩, hfind, heq⟩ :=
        Option.map_eq_some_iff.mp hstep
      cases heq
      obtain ⟨hmem, hphase⟩ := findDownloading_mem hfind
      have hholds := hapart.holds transfer hmem
      unfold Holds at hholds
      rw [hphase] at hholds
      have hqueued : Holds temporary state.files
          { transfer with phase := .uploadQueued } := hholds.1
      exact ⟨(hapart.setPhase hmem hqueued).withEnded _, by simp⟩
  | failDownload id removable =>
      obtain ⟨⟨transfer, position⟩, hfind, heq⟩ :=
        Option.map_eq_some_iff.mp hstep
      cases heq
      obtain ⟨hmem, _⟩ := findDownloading_mem hfind
      exact ⟨(hapart.removeTemporary hmem removable).withEnded _, by simp⟩
  | startUpload id =>
      obtain ⟨transfer, hfind, heq⟩ := Option.map_eq_some_iff.mp hstep
      cases heq
      obtain ⟨hmem, hphase⟩ := findInPhase_mem hfind
      have hholds := hapart.holds transfer hmem
      unfold Holds at hholds
      rw [hphase] at hholds
      exact ⟨hapart.setPhase hmem hholds, by simp⟩
  | read id =>
      obtain ⟨transfer, hfind, heq⟩ := Option.map_eq_some_iff.mp hstep
      cases heq
      obtain ⟨hmem, hphase⟩ := findInPhase_mem hfind
      have hholds := hapart.holds transfer hmem
      unfold Holds at hholds
      rw [hphase] at hholds
      refine ⟨hapart, ?_⟩
      intro reading hreading
      rw [List.mem_singleton.mp hreading]
      simp only
      rw [ProxyCall.localName_uploadItem]
      exact hholds
  | retryUpload id =>
      obtain ⟨transfer, hfind, heq⟩ := Option.map_eq_some_iff.mp hstep
      cases heq
      obtain ⟨hmem, hphase⟩ := findInPhase_mem hfind
      have hholds := hapart.holds transfer hmem
      unfold Holds at hholds
      rw [hphase] at hholds
      exact ⟨hapart.setPhase hmem hholds, by simp⟩
  | finishUpload id removable =>
      obtain ⟨transfer, hfind, heq⟩ := Option.map_eq_some_iff.mp hstep
      cases heq
      obtain ⟨hmem, _⟩ := findInPhase_mem hfind
      exact ⟨(hapart.removeTemporary hmem removable).withEnded _, by simp⟩
  | removeItem id =>
      cases hstep
      exact ⟨hapart.forget rfl rfl fun _ _ _ => rfl, by simp⟩
  | requeue index =>
      obtain ⟨item, hitem, heq⟩ := Option.map_eq_some_iff.mp hstep
      cases heq
      obtain ⟨hnew, hfile⟩ := hallowed item hitem
      have herased := hapart.withEnded (state.ended.eraseIdx index)
      exact ⟨herased.requeueFileItem hnew hfile, by simp⟩
  | removeEnded index =>
      cases hstep
      exact ⟨hapart.withEnded _, by simp⟩

theorem apart_initial (hinitial : (machine temporary).initial state) :
    state.Apart temporary := by
  have hnone : state.transfers = [] := hinitial.1
  constructor
  · unfold UniqueKeys.Unique
    rw [hnone]
    exact List.nodup_nil
  · rw [hnone]
    simp
  · unfold UniqueKeys.Unique
    rw [hnone]
    exact List.nodup_nil
  · rw [hnone]
    simp

/-- In every run in which no two calls in flight have the same temporary file,
an upload reads what has been downloaded for its call, and the temporary file
is there until the upload has ended. -/
theorem readings_of_every_run {requests : List Request}
    {readings : List Reading}
    (hreach : (machine temporary).ReachesWithin (Allowed temporary) requests
      readings state) :
    (∀ reading ∈ readings,
      reading.content = some reading.transfer.received) ∧
      ∀ transfer ∈ state.transfers,
        transfer.phase = .uploadQueued ∨ transfer.phase = .uploading →
        state.files (transfer.call.file temporary) =
          some transfer.received := by
  have hapart : state.Apart temporary := hreach.stateInvariant
    (Apart temporary) (fun _ hinitial => apart_initial hinitial)
    fun _ _ _ _ hinv hallowed hstep => (step_apart hinv hallowed hstep).1
  constructor
  · exact hreach.outputs_all (Apart temporary) _
      (fun _ hinitial => apart_initial hinitial)
      fun _ _ _ _ hinv hallowed hstep => step_apart hinv hallowed hstep
  · intro transfer hmem hphase
    have hholds := hapart.holds transfer hmem
    unfold Holds at hholds
    rcases hphase with hqueued | huploading
    · rw [hqueued] at hholds
      exact hholds
    · rw [huploading] at hholds
      exact hholds

/-- Different texts stand for different files. -/
def plainFiles : TemporaryFiles where
  localTempPath := ⟨['/', 't', '/']⟩
  resolve := fun path => path.foldl
    (fun number char => 1114112 * number + char.toNat + 1) 0

/-- The transfer of a file from a directory of one server to another one. -/
def callFrom (directory : Char) (fileName : WString) : ProxyCall where
  sourceSite :=
    ⟨⟨.ftp, .default, ['a'], [], 21, 0, .default, false, .auto, [], [], []⟩,
      ⟨.anonymous, [], []⟩⟩
  sourcePath := ⟨some ⟨[[directory]], none⟩, .unix⟩
  fileName := fileName
  targetSite :=
    ⟨⟨.ftp, .default, ['b'], [], 21, 0, .default, false, .auto, [], [], []⟩,
      ⟨.anonymous, [], []⟩⟩
  targetPath := ⟨some ⟨[], none⟩, .unix⟩

def noTransfers : ProxyTransfers := ⟨[], [], fun _ => none, 0⟩

/-- The second download has ended before the upload of the first begins. -/
def overlapping (first second : WString) : List Request :=
  [.queueProxyTransfer (callFrom 'a' first),
    .queueProxyTransfer (callFrom 'b' second), .startDownload 0 true,
    .receive 0 [1], .succeedDownload 0, .startDownload 1 true,
    .receive 1 [2], .succeedDownload 1, .startUpload 0, .read 0]

/-- The first file is transferred once more. -/
def again : List Request :=
  [.finishUpload 0 true, .requeue 0, .startDownload 2 true, .receive 2 [3],
    .succeedDownload 2, .startUpload 2, .read 2]

/-- Two calls at a time, and the first once more after it has ended. -/
theorem readings_of_every_run_overlapping : ∃ state readings,
    (machine plainFiles).ReachesWithin (Allowed plainFiles)
        (overlapping ['x'] ['y'] ++ again) readings state ∧
      readings.map Reading.content = [some [1], some [3]] ∧
      (∀ reading ∈ readings,
        reading.content = some reading.transfer.received) ∧
      ∀ transfer ∈ state.transfers,
        transfer.phase = .uploadQueued ∨ transfer.phase = .uploading →
        state.files (transfer.call.file plainFiles) =
          some transfer.received := by
  have hstart : (machine plainFiles).ReachesWithin (Allowed plainFiles) [] []
      noTransfers := .start ⟨rfl, rfl⟩
  have hreach : (machine plainFiles).ReachesWithin (Allowed plainFiles)
      (overlapping ['x'] ['y'] ++ again) _ _ := hstart.exec rfl
  exact ⟨_, _, hreach, rfl, readings_of_every_run hreach⟩

/-- Of two files of the same name, the second is uploaded for the first. -/
theorem second_uploaded_for_first : ∃ state reading,
    (machine plainFiles).Reaches (overlapping ['x'] ['x']) [reading] state ∧
      reading.transfer.call = callFrom 'a' ['x'] ∧
      reading.transfer.received = [1] ∧ reading.content = some [2] := by
  have hstart : (machine plainFiles).Reaches [] [] noTransfers :=
    .start ⟨rfl, rfl⟩
  have hreach : (machine plainFiles).Reaches (overlapping ['x'] ['x']) [_] _ :=
    hstart.exec rfl
  exact ⟨_, _, hreach, rfl, rfl, rfl⟩

end ProxyTransfers

end TabFtp
