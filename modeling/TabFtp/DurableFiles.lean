import Mathlib.Data.List.Basic

/-!
# Files that are written step by step

A file is created empty, written piece by piece and synced at the end.  Each
of these steps may fail.  When everything stops, a file that has been synced
is left as it is and any other file keeps some front part of what has been
written.
-/

namespace DurableFiles

universe u

variable {Byte : Type u}

structure DiskFile (Byte : Type u) where
  content : List Byte
  synced : Bool
  deriving DecidableEq

/-- What is left of a file if everything stops, where `kept` bytes of unsynced
data have reached the disk. -/
def DiskFile.stop (file : DiskFile Byte) (kept : ℕ) : DiskFile Byte :=
  if file.synced then file else ⟨file.content.take kept, true⟩

inductive WriteInput
  | create (succeeds : Bool)
  | write (length : ℕ)
  | writeFails
  | sync (succeeds : Bool)

def WriteInput.fails : WriteInput → Bool
  | .create succeeds => !succeeds
  | .write _ => false
  | .writeFails => true
  | .sync succeeds => !succeeds

inductive Progress
  | opened
  | finished (succeeded : Bool)

/-- One step of replacing the content of `file` by `text`. -/
def writeStep (text : List Byte) (file : Option (DiskFile Byte))
    (opened : Bool) (input : WriteInput) :
    Option (Option (DiskFile Byte) × Progress) :=
  match opened, file, input with
  | false, _, .create true => some (some ⟨[], false⟩, .opened)
  | false, file, .create false => some (file, .finished false)
  | true, some file, .write length =>
      let written := file.content.length
      if 0 < length ∧ written + length ≤ text.length then
        some
          (some ⟨file.content ++ (text.drop written).take length, false⟩,
            .opened)
      else none
  | true, some file, .writeFails =>
      if file.content.length < text.length then
        some (some file, .finished false)
      else none
  | true, some file, .sync succeeds =>
      if file.content.length = text.length then
        some (some ⟨file.content, file.synced || succeeds⟩, .finished succeeds)
      else none
  | _, _, _ => none

def HoldsFront (text : List Byte) (file : Option (DiskFile Byte)) : Prop :=
  ∃ found, file = some found ∧ found.content <+: text

theorem stop_front (file : DiskFile Byte) (kept : ℕ) :
    (file.stop kept).content <+: file.content := by
  unfold DiskFile.stop
  split_ifs
  · exact List.prefix_refl _
  · exact List.take_prefix _ _

theorem stop_of_synced {file : DiskFile Byte} (hsynced : file.synced = true)
    (kept : ℕ) : file.stop kept = file := by
  unfold DiskFile.stop
  rw [if_pos hsynced]

theorem append_front {text written : List Byte} (hfront : written <+: text)
    (length : ℕ) :
    written ++ (text.drop written.length).take length <+: text := by
  obtain ⟨rest, rfl⟩ := hfront
  rw [List.drop_left]
  exact (List.prefix_append_right_inj _).mpr (List.take_prefix _ _)

/-- Inversion.  A step leaves the file open with a front part of the text in
it, or gives up, or has written and synced all of it. -/
theorem writeStep_cases {text : List Byte} {file after : Option (DiskFile Byte)}
    {opened : Bool} {input : WriteInput} {progress : Progress}
    (hopened : opened = true → HoldsFront text file)
    (hstep : writeStep text file opened input = some (after, progress)) :
    progress = .opened ∧ HoldsFront text after ∨
      progress = .finished false ∧ input.fails = true ∧
        (after = file ∨ HoldsFront text after) ∨
      progress = .finished true ∧ after = some ⟨text, true⟩ := by
  cases opened with
  | false =>
      cases input with
      | create succeeds =>
          cases succeeds with
          | false =>
              cases hstep
              exact Or.inr (Or.inl ⟨rfl, rfl, Or.inl rfl⟩)
          | true =>
              cases hstep
              exact Or.inl ⟨rfl, _, rfl, List.nil_prefix⟩
      | write length => cases hstep
      | writeFails => cases hstep
      | sync succeeds => cases hstep
  | true =>
      obtain ⟨found, rfl, hfront⟩ := hopened rfl
      cases input with
      | create succeeds => cases hstep
      | write length =>
          simp only [writeStep] at hstep
          split_ifs at hstep with hfits
          cases hstep
          exact Or.inl ⟨rfl, _, rfl, append_front hfront length⟩
      | writeFails =>
          simp only [writeStep] at hstep
          split_ifs at hstep with hshort
          cases hstep
          exact Or.inr (Or.inl ⟨rfl, rfl, Or.inl rfl⟩)
      | sync succeeds =>
          simp only [writeStep] at hstep
          split_ifs at hstep with hlength
          have hwhole : found.content = text := hfront.eq_of_length hlength
          cases succeeds with
          | false =>
              cases hstep
              exact Or.inr (Or.inl ⟨rfl, rfl, Or.inr ⟨_, rfl, hfront⟩⟩)
          | true =>
              cases hstep
              right
              right
              rw [hwhole, Bool.or_true]
              exact ⟨rfl, rfl⟩

/-! ## Steps that all succeed -/

theorem writeStep_create (text : List Byte) (file : Option (DiskFile Byte)) :
    writeStep text file false (.create true) =
      some (some ⟨[], false⟩, .opened) := by
  cases file <;> rfl

theorem writeStep_all {text : List Byte} (hne : text ≠ []) :
    writeStep text (some ⟨[], false⟩) true (.write text.length) =
      some (some ⟨text, false⟩, .opened) := by
  have hpos : 0 < text.length := List.length_pos_iff.mpr hne
  have hfits : 0 < text.length ∧ 0 + text.length ≤ text.length := by omega
  simp only [writeStep, List.length_nil]
  rw [if_pos hfits, List.drop_zero, List.take_length, List.nil_append]

theorem writeStep_sync (text : List Byte) :
    writeStep text (some ⟨text, false⟩) true (.sync true) =
      some (some ⟨text, true⟩, .finished true) := by
  simp only [writeStep, if_true, Bool.or_true]

end DurableFiles
